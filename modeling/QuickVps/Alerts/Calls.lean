import QuickVps.Alerts.Service

/-!
# What the readers of the alert service call

The methods of `Service` that show something leave the service and its tables as they are: they
only select, read the clock, and copy the service. A new service is made of selects.
-/

namespace QuickVps.Alerts

def Stmt.selects : Stmt → Bool
  | loadConfig => true
  | loadSecretRecord => true
  | listEvents .. => true
  | getMutedUntil => true
  | _ => false

/-- A call that only reads. -/
def Op.Reads : Op → Prop
  | .sql stmt => stmt.selects = true
  | .now => True
  | .read => True
  | .historyDays => True
  | _ => False

theorem Op.Reads.exec_eq {http : Http} {c : Choice} {op : Op} {w w' : World} {r : op.Ans}
    (hop : op.Reads) (h : exec http c op w = some (r, w')) : w' = w := by
  cases op with
  | sql stmt =>
    unfold exec at h
    cases hfault : c.fault with
    | some err =>
      simp only [hfault] at h
      cases h
      rfl
    | none =>
      simp only [hfault, Option.some.injEq] at h
      cases stmt with
      | loadConfig | loadSecretRecord | listEvents _ _ | getMutedUntil =>
        cases h
        rfl
      | _ => cases hop
  | now | historyDays =>
    cases h
    rfl
  | read =>
    unfold exec at h
    simp only at h
    split_ifs at h
    cases h
    rfl
  | _ => exact hop.elim

theorem only_configView (readOnly : Bool) : (configView readOnly).Only Op.Reads :=
  (Prog.only_op trivial).bind fun _ => Prog.only_ret _

theorem only_status (readOnly : Bool) : (status readOnly).Only Op.Reads :=
  (Prog.only_op trivial).bind fun _ => (Prog.only_op trivial).bind fun _ => Prog.only_ret _

theorem only_isEnabled : isEnabled.Only Op.Reads :=
  (Prog.only_op trivial).bind fun _ => Prog.only_ret _

theorem only_historyRetentionDays : historyRetentionDays.Only Op.Reads := Prog.only_op trivial

theorem only_listHistory (limit beforeID : Int) : (listHistory limit beforeID).Only Op.Reads := by
  refine Prog.Only.bind (Prog.only_op (rfl : Stmt.selects _ = true)) fun answer => ?_
  cases answer <;> exact Prog.only_ret _

/-! ## A new service -/

/-- A call that only reads the tables and the clock. -/
def Op.Queries : Op → Prop
  | .sql stmt => stmt.selects = true
  | .now => True
  | _ => False

theorem only_newService (crypto : Crypto) (base64Key hostname : String) :
    (newService crypto base64Key hostname).Only Op.Queries := by
  have only_select {s : Stmt} (hs : s.selects = true) : (stmt s).Only Op.Queries :=
    Prog.only_op (by exact hs)
  have only_loadConfig : loadConfig.Only Op.Queries := by
    refine (only_select rfl).bind fun answer => ?_
    cases answer with
    | error err => exact Prog.only_ret _
    | ok cfg =>
      dsimp only
      split_ifs <;> exact Prog.only_ret _
  refine only_loadConfig.bind fun cfg => ?_
  cases cfg with
  | error err => exact Prog.only_ret _
  | ok cfg =>
    refine ((only_select rfl).bind fun answer => ?_).bind fun row => ?_
    · cases answer <;> exact Prog.only_ret _
    · cases row with
      | error err => exact Prog.only_ret _
      | ok row =>
        dsimp only
        cases serviceKey crypto base64Key with
        | error err => exact Prog.only_ret _
        | ok key =>
          refine ((only_select rfl).bind fun answer => ?_).bind fun muted => ?_
          · cases answer <;> exact Prog.only_ret _
          · cases muted with
            | error err => exact Prog.only_ret _
            | ok muted => exact (Prog.only_op trivial).bind fun _ => Prog.only_ret _

end QuickVps.Alerts
