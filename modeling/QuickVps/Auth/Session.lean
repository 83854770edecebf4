import QuickVps.Auth.Store

/-!
# The session manager

Sessions live in memory and in the table of sessions. `get` looks into memory first, then reads the
table and writes what it finds there into memory. Each lock region and each statement is one
operation, so other calls may come between them.
-/

namespace QuickVps.Auth

/-- The settings of a `SessionManager`; `persistent` is whether it has a store. -/
structure SessionManager where
  ttl : Int
  persistent : Bool

def newSessionManager (ttl : Int) (persistent : Bool) : SessionManager where
  ttl := if ttl ≤ 0 then 86400000000000 else ttl
  persistent := persistent

namespace SessionManager

variable (m : SessionManager)

def create (user : User) : M (Except String Session) := do
  match ← (Prog.op Op.randomToken : M (Except String String)) with
  | .error err => return .error err
  | .ok token =>
    let now ← (Prog.op Op.now : M Int)
    let s : Session :=
      { token := token
        userID := user.id
        username := user.username
        role := user.role
        expiresAt := now + m.ttl }
    match ← (Prog.op (Op.create m.persistent s) : M (Except String Unit)) with
    | .error err => return .error err
    | .ok () => return .ok s

def delete (token : String) : M Unit := do
  (Prog.op (Op.remove token) : M Unit)
  if m.persistent then
    let _ ← deleteSession token
  return ()

/-- The part of `Get` for a token that is not in memory. -/
def load (token : String) (now : Int) : M (Option Session) := do
  if !m.persistent then return none
  match ← deleteExpiredSessions now with
  | .error _ => return none
  | .ok () =>
    match ← getSession token with
    | .error _ => return none
    | .ok none => return none
    | .ok (some persisted) =>
      if now > persisted.expiresAt then
        m.delete token
        return none
      else
        (Prog.op (Op.put token persisted) : M Unit)
        return some persisted

def get (token : String) : M (Option Session) := do
  let now ← (Prog.op Op.now : M Int)
  match ← (Prog.op (Op.lookup token) : M (Option Session)) with
  | some session =>
    if now > session.expiresAt then
      m.delete token
      return none
    else return some session
  | none => m.load token now

def deleteByUserID (userID : Int) : M Unit := do
  (Prog.op (Op.removeByUserID userID) : M Unit)
  if m.persistent then
    let _ ← deleteSessionsByUserID userID
  return ()

end SessionManager

end QuickVps.Auth
