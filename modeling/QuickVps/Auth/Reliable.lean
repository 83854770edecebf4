import QuickVps.Auth.Store

/-!
# A store that does not fail

The runs of a program in which every statement succeeds. The clock, the random tokens and the hashes
are as the environment has them.
-/

namespace QuickVps.Auth

/-- What reaches the store succeeds. -/
def Choice.Reliable (c : Choice) : Op → Prop
  | .sql _ => c.fault = none
  | .create .. => c.fault = none
  | _ => True

instance decidableReliable (c : Choice) : ∀ op, Decidable (c.Reliable op)
  | .sql _ => inferInstanceAs (Decidable (c.fault = none))
  | .create .. => inferInstanceAs (Decidable (c.fault = none))
  | .now => isTrue trivial
  | .randomToken => isTrue trivial
  | .hashPassword _ => isTrue trivial
  | .lookup _ => isTrue trivial
  | .put .. => isTrue trivial
  | .remove _ => isTrue trivial
  | .removeByUserID _ => isTrue trivial

abbrev reliably (bcrypt : Bcrypt) : Choice → (op : Op) → World → Option (op.Ans × World) :=
  Prog.within Choice.Reliable (exec bcrypt)

variable {bcrypt : Bcrypt} {cs cs' : List Choice} {w w' : World}

theorem run_stmt_reliably {s : Stmt} {a : Except String s.Ans}
    (h : (stmt s).run (reliably bcrypt) cs w = some (a, cs', w')) :
    ∃ c, cs = c :: cs' ∧ s.exec c.now w = (a, w') := by
  obtain ⟨c, rfl, hexec⟩ := Prog.run_op h
  obtain ⟨hok, hexec⟩ := Prog.within_some.1 hexec
  rcases sql_exec_cases hexec with ⟨err, hfault, -, -⟩ | ⟨-, hstmt⟩
  · have hnone : c.fault = none := hok
    rw [hnone] at hfault
    cases hfault
  · exact ⟨c, rfl, hstmt⟩

theorem run_op_reliably {op : Op} {r : op.Ans}
    (h : (Prog.op op : M op.Ans).run (reliably bcrypt) cs w = some (r, cs', w')) :
    ∃ c, cs = c :: cs' ∧ c.Reliable op ∧ exec bcrypt c op w = some (r, w') := by
  obtain ⟨c, rfl, hexec⟩ := Prog.run_op h
  exact ⟨c, rfl, Prog.within_some.1 hexec⟩

end QuickVps.Auth
