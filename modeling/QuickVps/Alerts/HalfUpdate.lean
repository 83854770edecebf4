import QuickVps.Alerts.Rows

/-!
# A change of the configuration that ends with an error

`UpdateConfig` validates and encrypts first, writes the settings and then the secrets, and takes the
new values over when both are written. The two writes are not one transaction.

* `CutOff` — the second write fails after the first has changed the row;
* `unchanged_iff` — when the call ends with an error, memory and rows are the same exactly if it was
  not cut off.
-/

namespace QuickVps.Alerts

open Go

variable {json : JsonText} {http : Http} {crypto : Crypto} {cs cs' : List Choice} {d d' : Disk}

/-- Call number `n` fails, if it is a statement or takes a nonce. -/
def Fails (cs : List Choice) (n : Nat) : Prop := Prog.ChoiceAt (fun c => c.fault ≠ none) cs n

@[simp]
theorem fails_zero {c : Choice} {cs : List Choice} : Fails (c :: cs) 0 ↔ c.fault ≠ none :=
  Prog.choiceAt_zero

theorem fails_drop {m n : Nat} : Fails (cs.drop m) n ↔ Fails cs (m + n) := Prog.choiceAt_drop

/-- A secret that is given takes one nonce. -/
def secretCalls (given : String) : Nat := if trim given = "" then 0 else 1

/-- A secret that is given can be encrypted. -/
def SecretPasses (s : Service) (given : String) (cs : List Choice) : Prop :=
  trim given ≠ "" → s.secretsWritable = true ∧ s.key ≠ none ∧ ¬ Fails cs 0

/-- The configuration is valid, the given secrets can be encrypted and the settings are saved, but
the secrets cannot be saved. -/
def SecondFails (s : Service) (i : UpdateConfigInput) (cs : List Choice) : Prop :=
  validateConfig (i.apply s.cfg) = none ∧ SecretPasses s i.telegramBotToken (cs.drop 1) ∧
    SecretPasses s i.gmailAppPassword (cs.drop (1 + secretCalls i.telegramBotToken)) ∧
      ¬ Fails cs (1 + secretCalls i.telegramBotToken + secretCalls i.gmailAppPassword) ∧
        Fails cs (1 + secretCalls i.telegramBotToken + secretCalls i.gmailAppPassword + 1)

/-- **A change that is cut off.** The second write fails, and the first one has changed the row. -/
def CutOff (json : JsonText) (d : Disk) (i : UpdateConfigInput) (cs : List Choice) : Prop :=
  SecondFails d.service i cs ∧ (i.apply d.service.cfg).row json ≠ d.settings

/-- Configuration, secrets and their row in memory, and both rows of the database. -/
def SameSettings (d d' : Disk) : Prop :=
  (d'.service.cfg = d.service.cfg ∧ d'.service.secrets = d.service.secrets ∧
    d'.service.secretRec = d.service.secretRec) ∧
      d'.settings = d.settings ∧ d'.secrets = d.secrets

/-! ## The parts of a change -/

/-- A secret is refused, or changed with one nonce if one is given; the disk is as before. -/
theorem changeSecret_run {s : Service} {given : String} {clear : Bool} {old : Sealed}
    {a : Except String Sealed}
    (h : (changeSecret crypto s given clear old).run (Disk.exec json http) cs d =
      some (a, cs', d')) :
    d' = d ∧
      ((∃ err, a = .error err) ∧ ¬ SecretPasses s given cs ∨
        (∃ x, a = .ok x) ∧ SecretPasses s given cs ∧ cs' = cs.drop (secretCalls given)) := by
  unfold changeSecret at h
  by_cases hgiven : trim given = ""
  · rw [if_neg (not_not.2 hgiven)] at h
    obtain ⟨rfl, rfl, rfl⟩ := Prog.run_ret h
    refine ⟨rfl, .inr ⟨⟨_, rfl⟩, fun hne => absurd hgiven hne, ?_⟩⟩
    rw [secretCalls, if_pos hgiven, List.drop_zero]
  · rw [if_pos hgiven] at h
    cases hwritable : s.secretsWritable with
    | false =>
      rw [hwritable] at h
      obtain ⟨rfl, -, rfl⟩ := Prog.run_ret h
      refine ⟨rfl, .inl ⟨⟨_, rfl⟩, fun hpasses => ?_⟩⟩
      cases hwritable.symm.trans (hpasses hgiven).1
    | true =>
      rw [hwritable] at h
      obtain ⟨answer, ds, t, hencrypt, hrest⟩ := Prog.run_bind h
      cases hkey : s.key with
      | none =>
        rw [hkey] at hencrypt
        obtain ⟨rfl, rfl, rfl⟩ := Prog.run_ret hencrypt
        obtain ⟨rfl, -, rfl⟩ := Prog.run_ret hrest
        exact ⟨rfl, .inl ⟨⟨_, rfl⟩, fun hpasses => (hpasses hgiven).2.1 hkey⟩⟩
      | some key =>
        rw [hkey] at hencrypt
        obtain ⟨nonce, es, u, hnonce, hend⟩ := Prog.run_bind hencrypt
        obtain ⟨c, rfl, hexec⟩ := Prog.run_op hnonce
        cases hfault : c.fault with
        | some err =>
          simp only [Disk.exec, exec, hfault] at hexec
          cases hexec
          obtain ⟨rfl, rfl, rfl⟩ := Prog.run_ret hend
          obtain ⟨rfl, -, rfl⟩ := Prog.run_ret hrest
          refine ⟨rfl, .inl ⟨⟨_, rfl⟩, fun hpasses => ?_⟩⟩
          exact (hpasses hgiven).2.2 (fails_zero.2 (by simp [hfault]))
        | none =>
          simp only [Disk.exec, exec, hfault] at hexec
          cases hexec
          obtain ⟨rfl, rfl, rfl⟩ := Prog.run_ret hend
          obtain ⟨rfl, rfl, rfl⟩ := Prog.run_ret hrest
          refine ⟨rfl, .inr ⟨⟨_, rfl⟩, fun _ => ⟨hwritable, by simp [hkey], ?_⟩, ?_⟩⟩
          · simp [hfault]
          · rw [secretCalls, if_neg hgiven]
            rfl

theorem saveConfig_run {cfg : Config} {a : Except String Unit}
    (h : (saveConfig cfg).run (Disk.exec json http) cs d = some (a, cs', d')) :
    cs' = cs.drop 1 ∧
      ((∃ err, a = .error err) ∧ Fails cs 0 ∧ d' = d ∨
        a = .ok () ∧ ¬ Fails cs 0 ∧ d' = { d with settings := cfg.row json }) := by
  obtain ⟨answer, ds, t, hstmt, hrest⟩ := Prog.run_bind h
  obtain ⟨c, rfl, ⟨hfault, ⟨err, rfl⟩, rfl⟩ | ⟨hfault, hexec⟩⟩ := stmt_run hstmt
  · obtain ⟨rfl, rfl, rfl⟩ := Prog.run_ret hrest
    exact ⟨rfl, .inl ⟨⟨_, rfl⟩, fails_zero.2 hfault, rfl⟩⟩
  · cases hexec
    obtain ⟨rfl, rfl, rfl⟩ := Prog.run_ret hrest
    exact ⟨rfl, .inr ⟨rfl, by simp [hfault], rfl⟩⟩

theorem saveSecretRecord_run {row : SecretRecord} {a : Except String Unit}
    (h : (saveSecretRecord row).run (Disk.exec json http) cs d = some (a, cs', d')) :
    (∃ err, a = .error err) ∧ Fails cs 0 ∧ d' = d ∨
      a = .ok () ∧ ¬ Fails cs 0 ∧ d' = { d with secrets := row } := by
  obtain ⟨answer, ds, t, hstmt, hrest⟩ := Prog.run_bind h
  obtain ⟨c, rfl, ⟨hfault, ⟨err, rfl⟩, rfl⟩ | ⟨hfault, hexec⟩⟩ := stmt_run hstmt
  · obtain ⟨rfl, -, rfl⟩ := Prog.run_ret hrest
    exact .inl ⟨⟨_, rfl⟩, fails_zero.2 hfault, rfl⟩
  · cases hexec
    obtain ⟨rfl, -, rfl⟩ := Prog.run_ret hrest
    exact .inr ⟨rfl, by simp [hfault], rfl⟩

/-- A change that ends with an error has changed nothing, or has saved the settings only. -/
theorem changeConfig_error {s : Service} {i : UpdateConfigInput} {err : String}
    (h : (changeConfig crypto s i).run (Disk.exec json http) (cs.drop 1) d =
      some (.error err, cs', d')) :
    d' = d ∧ ¬ SecondFails s i cs ∨
      d' = { d with settings := (i.apply s.cfg).row json } ∧ SecondFails s i cs := by
  unfold changeConfig at h
  cases hvalid : validateConfig (i.apply s.cfg) with
  | some err =>
    simp only [hvalid] at h
    obtain ⟨-, -, rfl⟩ := Prog.run_ret h
    exact .inl ⟨rfl, fun hsecond => nomatch hvalid.symm.trans hsecond.1⟩
  | none =>
    simp only [hvalid] at h
    obtain ⟨token, ds, t, htoken, hrest⟩ := Prog.run_bind h
    obtain ⟨rfl, ⟨⟨err', rfl⟩, hnot⟩ | ⟨⟨token, rfl⟩, hpasses, hds⟩⟩ := changeSecret_run htoken
    · obtain ⟨-, -, rfl⟩ := Prog.run_ret hrest
      exact .inl ⟨rfl, fun hsecond => hnot hsecond.2.1⟩
    rw [List.drop_drop] at hds
    obtain ⟨password, es, u, hpassword, hrest⟩ := Prog.run_bind hrest
    obtain ⟨rfl, ⟨⟨err', rfl⟩, hnot⟩ | ⟨⟨password, rfl⟩, hpasses', hes⟩⟩ :=
      changeSecret_run hpassword
    · obtain ⟨-, -, rfl⟩ := Prog.run_ret hrest
      exact .inl ⟨rfl, fun hsecond => hnot (hds ▸ hsecond.2.2.1)⟩
    rw [hds, List.drop_drop] at hes
    obtain ⟨saved, fs, v, hsave, hsaved⟩ := Prog.run_bind hrest
    obtain ⟨hfs, ⟨⟨err', rfl⟩, hfirst, rfl⟩ | ⟨rfl, hfirst, rfl⟩⟩ := saveConfig_run hsave
    · obtain ⟨-, -, rfl⟩ := Prog.run_ret hsaved
      refine .inl ⟨rfl, fun hsecond => hsecond.2.2.2.1 ?_⟩
      rwa [hes, fails_drop, Nat.add_zero] at hfirst
    obtain ⟨saved, gs, x, hsave', hend⟩ := Prog.run_bind hsaved
    rcases saveSecretRecord_run hsave' with ⟨⟨err', rfl⟩, hlast, rfl⟩ | ⟨rfl, -, -⟩
    · obtain ⟨-, -, rfl⟩ := Prog.run_ret hend
      rw [hes, fails_drop, Nat.add_zero] at hfirst
      rw [hfs, hes, List.drop_drop, fails_drop, Nat.add_zero] at hlast
      exact .inr ⟨rfl, hvalid, hpasses, hds ▸ hpasses', hfirst, hlast⟩
    · obtain ⟨herr, -, -⟩ := Prog.run_ret hend
      cases herr

/-- **When a change that ends with an error leaves everything as it was.** -/
theorem unchanged_iff {i : UpdateConfigInput} {err : String}
    (h : (updateConfig crypto i).run (Disk.exec json http) cs d = some (.error err, cs', d')) :
    SameSettings d d' ↔ ¬ CutOff json d i cs := by
  obtain ⟨s, ds, t, hlock, hrest⟩ := Prog.run_bind h
  obtain ⟨rfl, rfl, rfl⟩ := lock_run hlock
  obtain ⟨changed, es, u, hchange, hrest⟩ := Prog.run_bind hrest
  cases changed with
  | ok s' =>
    obtain ⟨_, fs, v, -, hret⟩ := Prog.run_bind hrest
    obtain ⟨herr, -, -⟩ := Prog.run_ret hret
    cases herr
  | error err' =>
    obtain ⟨_, fs, v, hunlock, hret⟩ := Prog.run_bind hrest
    obtain ⟨-, -, rfl⟩ := Prog.run_ret hret
    obtain rfl := unlock_run hunlock
    rcases changeConfig_error hchange with ⟨rfl, hnot⟩ | ⟨rfl, hsecond⟩
    · exact iff_of_true ⟨⟨rfl, rfl, rfl⟩, rfl, rfl⟩ fun hcut => hnot hcut.1
    · constructor
      · exact fun hsame hcut => hcut.2 hsame.2.1
      · intro hcut
        refine ⟨⟨rfl, rfl, rfl⟩, ?_, rfl⟩
        by_contra hother
        exact hcut ⟨hsecond, hother⟩

/-! ### A run -/

/-- Alerts are switched off, and the second write finds the disk full. -/
def switchOff : UpdateConfigInput := { enabled := some false }

def diskFull : List Choice := [{}, {}, { fault := some "disk full" }, {}]

def switchedOff : Disk :=
  { Disk.fresh plainJsonText with
    settings := { defaultConfig with enabled := false }.row plainJsonText }

theorem updateConfig_diskFull :
    (updateConfig plainCrypto switchOff).run (Disk.exec plainJsonText plainHttp) diskFull
      (Disk.fresh plainJsonText) =
        some (.error "save alert secrets: disk full", [], switchedOff) :=
  rfl

theorem unchanged_iff_diskFull :
    SameSettings (Disk.fresh plainJsonText) switchedOff ↔
      ¬ CutOff plainJsonText (Disk.fresh plainJsonText) switchOff diskFull :=
  unchanged_iff updateConfig_diskFull

/-- **The settings are changed although the call fails**, by the failure of one statement. -/
theorem settings_changed_by_error :
    ¬ ∀ (json : JsonText) (http : Http) (crypto : Crypto) (cs cs' : List Choice) (d d' : Disk)
      (i : UpdateConfigInput) (err : String), (cs.countP fun c => c.fault ≠ none) ≤ 1 →
      (updateConfig crypto i).run (Disk.exec json http) cs d = some (.error err, cs', d') →
      SameSettings d d' := by
  intro hall
  have hsame := hall _ _ _ _ _ _ _ _ _ (by decide) updateConfig_diskFull
  have henabled : (0 : Int) = 1 := congrArg SettingsRow.enabled hsame.2.1
  exact absurd henabled (by decide)

end QuickVps.Alerts
