import QuickVps.Alerts.ConfigHistory

/-!
# Secrets under another key

A service may be restarted without its key or with another one. Then its secrets are empty in
memory, but every change writes the row of the secrets back, so what matters is that the row keeps
the ciphertexts that nobody has replaced.

* `Secret` — the token or the password, and `HostStep.Leaves`, a step that does not touch it.
* `cipher_run` — steps that leave a secret keep its ciphertext, whatever keys the services have.
* `secret_recovered` — so a secret is there again once its key is.
-/

namespace QuickVps.Alerts

open Go

variable {json : JsonText} {http : Http} {crypto : Crypto} {cs cs' : List Choice} {d d' : Disk}

/-! ## The two secrets -/

inductive Secret where
  | token
  | password
  deriving DecidableEq

namespace Secret

def given : Secret → UpdateConfigInput → String
  | token, i => i.telegramBotToken
  | password, i => i.gmailAppPassword

def clear : Secret → UpdateConfigInput → Bool
  | token, i => i.clearTelegramBotToken
  | password, i => i.clearGmailAppPassword

def cipher : Secret → SecretRecord → String
  | token, row => row.telegramTokenCipher
  | password, row => row.gmailPasswordCipher

def plain : Secret → Secrets → String
  | token, s => s.telegramBotToken
  | password, s => s.gmailAppPassword

/-- The secret in memory with its ciphertext. -/
def of (x : Secret) (s : Service) : Sealed := ⟨x.plain s.secrets, x.cipher s.secretRec⟩

end Secret

/-- A step that neither gives the secret nor clears it. -/
def HostStep.Leaves (x : Secret) : HostStep → Prop
  | update i _ _ => trim (x.given i) = "" ∧ x.clear i = false
  | restart .. => True

/-! ## One change -/

/-- A secret that is given is encrypted with the key of the service. -/
theorem changeSecret_given {s : Service} {given : String} {old x : Sealed}
    (hgiven : trim given ≠ "")
    (h : (changeSecret crypto s given false old).run (Disk.exec json http) cs d =
      some (.ok x, cs', d')) :
    ∃ key, s.key = some key ∧
      ∃ c ∈ cs, x = ⟨trim given, crypto.encrypt key c.nonce (trim given)⟩ := by
  unfold changeSecret at h
  rw [if_pos hgiven] at h
  cases hwritable : s.secretsWritable with
  | false =>
    rw [hwritable] at h
    obtain ⟨herr, -, -⟩ := Prog.run_ret h
    cases herr
  | true =>
    rw [hwritable] at h
    obtain ⟨answer, ds, t, hencrypt, hrest⟩ := Prog.run_bind h
    cases hkey : s.key with
    | none =>
      rw [hkey] at hencrypt
      obtain ⟨rfl, -, -⟩ := Prog.run_ret hencrypt
      obtain ⟨herr, -, -⟩ := Prog.run_ret hrest
      cases herr
    | some key =>
      rw [hkey] at hencrypt
      obtain ⟨nonce, es, u, hnonce, hend⟩ := Prog.run_bind hencrypt
      obtain ⟨c, rfl, hexec⟩ := Prog.run_op hnonce
      cases hfault : c.fault with
      | some err =>
        simp only [Disk.exec, exec, hfault] at hexec
        cases hexec
        obtain ⟨rfl, -, -⟩ := Prog.run_ret hend
        obtain ⟨herr, -, -⟩ := Prog.run_ret hrest
        cases herr
      | none =>
        simp only [Disk.exec, exec, hfault] at hexec
        cases hexec
        obtain ⟨rfl, -, -⟩ := Prog.run_ret hend
        obtain ⟨heq, -, -⟩ := Prog.run_ret hrest
        exact ⟨key, rfl, c, List.mem_cons_self, Except.ok.inj heq⟩

/-- A change that is made has changed each secret on its own, and stored both. -/
theorem updateConfig_made {i : UpdateConfigInput} {view : ConfigView}
    (h : (updateConfig crypto i).run (Disk.exec json http) cs d = some (.ok view, cs', d')) :
    d'.secrets = d'.service.secretRec ∧ ∀ x : Secret, ∃ cs₁ cs₂, cs₁ ⊆ cs ∧
      (changeSecret crypto d.service (x.given i) (x.clear i) (x.of d.service)).run
        (Disk.exec json http) cs₁ { d with locked := true } =
          some (.ok (x.of d'.service), cs₂, { d with locked := true }) := by
  obtain ⟨s, ds, t, hlock, hrest⟩ := Prog.run_bind h
  obtain ⟨rfl, rfl, rfl⟩ := lock_run hlock
  obtain ⟨changed, es, u, hchange, hrest⟩ := Prog.run_bind hrest
  cases changed with
  | error err =>
    obtain ⟨_, fs, v, -, hret⟩ := Prog.run_bind hrest
    obtain ⟨herr, -, -⟩ := Prog.run_ret hret
    cases herr
  | ok s' =>
    obtain ⟨_, fs, v, hunlock, hret⟩ := Prog.run_bind hrest
    obtain ⟨-, -, rfl⟩ := Prog.run_ret hret
    obtain rfl := unlock_run hunlock
    have hsub : cs.drop 1 ⊆ cs := (List.drop_suffix 1 cs).subset
    unfold changeConfig at hchange
    cases hvalid : validateConfig (i.apply d.service.cfg) with
    | some err =>
      simp only [hvalid] at hchange
      obtain ⟨herr, -, -⟩ := Prog.run_ret hchange
      cases herr
    | none =>
      simp only [hvalid] at hchange
      obtain ⟨token, ds, t, htoken, hrest⟩ := Prog.run_bind hchange
      obtain ⟨rfl, ⟨⟨err, rfl⟩, -⟩ | ⟨⟨token, rfl⟩, -⟩⟩ := changeSecret_run htoken
      · obtain ⟨herr, -, -⟩ := Prog.run_ret hrest
        cases herr
      obtain ⟨password, es, u, hpassword, hrest⟩ := Prog.run_bind hrest
      obtain ⟨rfl, ⟨⟨err, rfl⟩, -⟩ | ⟨⟨password, rfl⟩, -⟩⟩ := changeSecret_run hpassword
      · obtain ⟨herr, -, -⟩ := Prog.run_ret hrest
        cases herr
      obtain ⟨saved, fs, v, hsave, hsaved⟩ := Prog.run_bind hrest
      obtain ⟨-, ⟨⟨err, rfl⟩, -, rfl⟩ | ⟨rfl, -, rfl⟩⟩ := saveConfig_run hsave
      · obtain ⟨herr, -, -⟩ := Prog.run_ret hsaved
        cases herr
      obtain ⟨saved, gs, y, hsave', hend⟩ := Prog.run_bind hsaved
      obtain ⟨⟨err, rfl⟩, -, rfl⟩ | ⟨rfl, -, rfl⟩ := saveSecretRecord_run hsave'
      · obtain ⟨herr, -, -⟩ := Prog.run_ret hend
        cases herr
      obtain ⟨heq, -, rfl⟩ := Prog.run_ret hend
      cases heq
      refine ⟨rfl, fun x => ?_⟩
      cases x with
      | token => exact ⟨cs.drop 1, _, hsub, htoken⟩
      | password => exact ⟨ds, _, fun c hc => hsub ((Prog.run_suffix htoken).subset hc), hpassword⟩

theorem updateConfig_refused {i : UpdateConfigInput} {err : String}
    (h : (updateConfig crypto i).run (Disk.exec json http) cs d = some (.error err, cs', d')) :
    d'.secrets = d.secrets ∧ d'.service = d.service := by
  rcases updateConfig_cases h with ⟨-, rfl | ⟨-, rfl⟩⟩ | ⟨-, token, password, herr, -⟩
  · exact ⟨rfl, rfl⟩
  · exact ⟨rfl, rfl⟩
  · cases herr

/-! ## One restart -/

/-- A service that is made has the row of the secrets, and what its key opens of it. -/
theorem newService_secrets {base64Key hostname : String} {s : Service}
    (h : (newService crypto base64Key hostname).run (Disk.exec json http) cs d =
      some (.ok s, cs', d')) :
    ∃ key cfg mutedUntil now, serviceKey crypto base64Key = .ok key ∧
      s = Service.init crypto key hostname cfg d.secrets mutedUntil now := by
  obtain ⟨loaded, ds, t, hload, hrest⟩ := Prog.run_bind h
  have hdisk : t = d := by
    obtain ⟨answer, es, u, hstmt, hend⟩ := Prog.run_bind hload
    have hu : u = d := by
      obtain ⟨c, -, ⟨-, -, rfl⟩ | ⟨-, hexec⟩⟩ := stmt_run hstmt
      · rfl
      · cases hexec
        rfl
    cases answer with
    | error err =>
      obtain ⟨-, -, rfl⟩ := Prog.run_ret hend
      exact hu
    | ok cfg =>
      dsimp only at hend
      split_ifs at hend <;>
      · obtain ⟨-, -, rfl⟩ := Prog.run_ret hend
        exact hu
  subst hdisk
  cases loaded with
  | error err =>
    obtain ⟨herr, -, -⟩ := Prog.run_ret hrest
    cases herr
  | ok cfg =>
    obtain ⟨row, ds₁, t₁, hrow, hrest⟩ := Prog.run_bind hrest
    cases row with
    | error err =>
      obtain ⟨herr, -, -⟩ := Prog.run_ret hrest
      cases herr
    | ok row =>
      obtain ⟨rfl, rfl⟩ := loadSecretRecord_ok hrow
      cases hkey : serviceKey crypto base64Key with
      | error err =>
        rw [hkey] at hrest
        obtain ⟨herr, -, -⟩ := Prog.run_ret hrest
        cases herr
      | ok key =>
        rw [hkey] at hrest
        obtain ⟨muted, ds₂, t₂, hmuted, hrest⟩ := Prog.run_bind hrest
        cases muted with
        | error err =>
          obtain ⟨herr, -, -⟩ := Prog.run_ret hrest
          cases herr
        | ok mutedUntil =>
          obtain ⟨now, ds₃, t₃, -, hrest⟩ := Prog.run_bind hrest
          obtain ⟨hs, -, -⟩ := Prog.run_ret hrest
          exact ⟨key, cfg, mutedUntil, now, rfl, Except.ok.inj hs⟩

/-! ## Runs -/

/-- The row in memory is the stored one. -/
def Host.InSync (h : Host) : Prop := h.up = true → h.disk.service.secretRec = h.disk.secrets

/-- **Step.** A step keeps the row in memory the stored one, and a secret that it leaves its
ciphertext. -/
theorem cipher_step {x : Secret} {h h' : Host} {a : HostStep} (hsync : h.InSync)
    (hstep : h.step json http crypto a = some h') :
    h'.InSync ∧ (a.Leaves x → x.cipher h'.disk.secrets = x.cipher h.disk.secrets) := by
  cases a with
  | update i hi choices =>
    simp only [Host.step] at hstep
    split_ifs at hstep with hup
    obtain ⟨⟨answer, cs', disk⟩, hrun, rfl⟩ := Option.map_eq_some_iff.1 hstep
    cases answer with
    | error err =>
      obtain ⟨hsecrets, hservice⟩ := updateConfig_refused hrun
      refine ⟨fun _ => ?_, fun _ => congrArg x.cipher hsecrets⟩
      have hin := hsync hup
      simp only [Host.updated]
      rw [hservice, hsecrets, hin]
    | ok view =>
      obtain ⟨hstored, hchanged⟩ := updateConfig_made hrun
      refine ⟨fun _ => hstored.symm, fun hleaves => ?_⟩
      obtain ⟨hgiven, hclear⟩ := hleaves
      obtain ⟨cs₁, cs₂, -, hsecret⟩ := hchanged x
      have hkept := congrArg Sealed.cipher (changeSecret_kept hgiven hclear hsecret)
      simp only [Secret.of] at hkept
      simp only [Host.updated]
      rw [hstored, hkept, hsync hup]
  | restart base64Key hostname choices =>
    obtain ⟨⟨made, cs', disk⟩, hrun, rfl⟩ := Option.map_eq_some_iff.1 hstep
    obtain rfl := newService_disk hrun
    cases made with
    | error err =>
      refine ⟨fun hup => ?_, fun _ => rfl⟩
      exact absurd hup Bool.false_ne_true
    | ok s =>
      obtain ⟨key, cfg, mutedUntil, now, -, rfl⟩ := newService_secrets hrun
      exact ⟨fun _ => rfl, fun _ => rfl⟩

/-- **Run.** -/
theorem cipher_run {x : Secret} {h h' : Host} {steps : List HostStep} (hsync : h.InSync)
    (hleaves : ∀ a ∈ steps, a.Leaves x)
    (hrun : Lts.run (Host.step json http crypto) h steps = some h') :
    x.cipher h'.disk.secrets = x.cipher h.disk.secrets := by
  have hkept : h'.InSync ∧ x.cipher h'.disk.secrets = x.cipher h.disk.secrets := by
    refine Lts.invariant_along (G := fun _ a => a.Leaves x)
      (I := fun t : Host => t.InSync ∧ x.cipher t.disk.secrets = x.cipher h.disk.secrets)
      (fun t a t' ht hleaves hstep => ?_) ⟨hsync, rfl⟩ (Lts.along_of_forall hleaves h) hrun
    obtain ⟨hin, hcipher⟩ := ht
    obtain ⟨hin', hcipher'⟩ := cipher_step hin hstep
    exact ⟨hin', (hcipher' hleaves).trans hcipher⟩
  exact hkept.2

/-- **A secret is recovered.** It was given under some key. Then services may come and go with other
keys or none, and other changes be made, refused or cut off. The next service with that key has it
again. -/
theorem secret_recovered {x : Secret} {h h' : Host} {i : UpdateConfigInput} {view : ConfigView}
    {disk : Disk} {key : List UInt8}
    (hgive : (updateConfig aesCrypto i).run (Disk.exec json http) cs h.disk =
      some (.ok view, cs', disk))
    (hkey : h.disk.service.key = some key) (hnonce : ∀ c ∈ cs, c.nonce.length = nonceSize)
    (hgiven : trim (x.given i) ≠ "") (hclear : x.clear i = false) {steps : List HostStep}
    (hleaves : ∀ a ∈ steps, a.Leaves x)
    (hrun : Lts.run (Host.step json http aesCrypto) (h.updated i (.ok view) disk) steps = some h')
    {base64Key hostname : String} (hsame : serviceKey aesCrypto base64Key = .ok (some key))
    {start rest : List Choice} {s : Service}
    (hnew : (newService aesCrypto base64Key hostname).run (Disk.exec json http) start h'.disk =
      some (.ok s, rest, d')) : x.plain s.secrets = trim (x.given i) := by
  -- The change has stored what the key opens.
  obtain ⟨hstored, hchanged⟩ := updateConfig_made hgive
  obtain ⟨cs₁, cs₂, hsub, hsecret⟩ := hchanged x
  rw [hclear] at hsecret
  obtain ⟨key', hkey', c, hc, hsealed⟩ := changeSecret_given hgiven hsecret
  obtain rfl := Option.some.inj (hkey.symm.trans hkey')
  have hcipher : x.cipher disk.secrets = aesCrypto.encrypt key c.nonce (trim (x.given i)) := by
    rw [hstored]
    exact congrArg Sealed.cipher hsealed
  -- It is still stored, and opened.
  have hkept : x.cipher h'.disk.secrets = x.cipher disk.secrets :=
    cipher_run (fun _ => hstored.symm) hleaves hrun
  obtain ⟨key', cfg, mutedUntil, now, hkey', rfl⟩ := newService_secrets hnew
  obtain rfl := Except.ok.inj (hsame.symm.trans hkey')
  have hopen : x.plain (Service.init aesCrypto (some key) hostname cfg h'.disk.secrets
      mutedUntil now).secrets = openSecret aesCrypto key (x.cipher h'.disk.secrets) := by
    cases x <;> rfl
  rw [hopen, hkept, hcipher]
  exact openSecret_encrypt (hnonce c (hsub hc)) _

/-! ### A lost key -/

/-- A service with the key. -/
def keyed : Host :=
  { disk := { Disk.fresh plainJsonText with service := started }
    up := true, emails := ⟨false, false⟩, chatIDs := ⟨false, false⟩ }

def giveToken : UpdateConfigInput := { telegramBotToken := " 12:ab " }

/-- A restart without the key, a change that is cut off, and another one. -/
def withoutKey : List HostStep :=
  [.restart "" "host" [{}, {}, {}, {}],
    .update { enabled := some false } (by constructor <;> simp [DelaysFit])
      [{}, {}, { fault := some "disk full" }, {}],
    .update { cooldownSec := some 60 } (by constructor <;> simp [DelaysFit, minInt64, maxInt64])
      [{}, {}, {}, {}]]

theorem secret_recovered_withoutKey :
    ∃ view disk h s rest d',
      (updateConfig aesCrypto giveToken).run (Disk.exec plainJsonText plainHttp)
        (List.replicate 5 { nonce := List.replicate 12 7 }) keyed.disk =
          some (.ok view, [], disk) ∧
      Lts.run (Host.step plainJsonText plainHttp aesCrypto)
        (keyed.updated giveToken (.ok view) disk) withoutKey = some h ∧
      (newService aesCrypto zeroKey "host").run (Disk.exec plainJsonText plainHttp)
        [{}, {}, {}, {}] h.disk = some (.ok s, rest, d') ∧
      s.secrets.telegramBotToken = trim giveToken.telegramBotToken := by
  obtain ⟨view, disk, h, s, rest, d', hgive, hrun, hnew⟩ : ∃ view disk h s rest d',
      (updateConfig aesCrypto giveToken).run (Disk.exec plainJsonText plainHttp)
        (List.replicate 5 { nonce := List.replicate 12 7 }) keyed.disk =
          some (.ok view, [], disk) ∧
      Lts.run (Host.step plainJsonText plainHttp aesCrypto)
        (keyed.updated giveToken (.ok view) disk) withoutKey = some h ∧
      (newService aesCrypto zeroKey "host").run (Disk.exec plainJsonText plainHttp)
        [{}, {}, {}, {}] h.disk = some (.ok s, rest, d') :=
    ⟨_, _, _, _, _, _, rfl, rfl, rfl⟩
  have hkey : keyed.disk.service.key = some (List.replicate 32 0) := rfl
  have hsame : serviceKey aesCrypto zeroKey = .ok (some (List.replicate 32 0)) := rfl
  have hleaves : ∀ a ∈ withoutKey, a.Leaves .token := by
    have hempty : trim "" = "" := by decide
    simp [withoutKey, HostStep.Leaves, Secret.given, Secret.clear, hempty]
  have hgiven : trim (Secret.token.given giveToken) ≠ "" := by decide
  exact ⟨view, disk, h, s, rest, d', hgive, hrun, hnew,
    secret_recovered hgive hkey (by simp [nonceSize]) hgiven rfl hleaves hrun hsame hnew⟩

end QuickVps.Alerts
