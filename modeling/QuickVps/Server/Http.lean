import QuickVps.Auth.Session
import QuickVps.Go.Json
import QuickVps.Go.ServeMux

/-!
# Requests, responses and access

A request as the handlers see it, the response they write, and the checks of session and role that
the handlers share. The request context is passed along separately: all it can hold is the session
of the middleware.
-/

namespace QuickVps

/-- `hasAlerts` is whether there is an alert service; the last three are constants of the build. -/
structure Server where
  authDisabled : Bool
  sessions : Auth.SessionManager
  hasAlerts : Bool
  goos : String := "linux"
  arch : String := "amd64"
  version : String := "dev"

namespace Server

open Go

/-! ## Requests and responses -/

/-- `path` is the decoded path; `cookie` is the value of the session cookie, `query` the first
value of a query parameter, `body` the value that the body holds, unless it cannot be read. -/
structure Request where
  method : String
  escapedPath : List Char
  path : List Char
  parsed : unescape escapedPath = some path := by decide
  cookie : Option String := none
  query : String → String := fun _ => ""
  body : Option Json := none
  tls : Bool := false

/-- The session in the request context. -/
abbrev Context := Option Auth.Session

structure Cookie where
  name : String := "quickvps_session"
  value : String
  path : String := "/"
  httpOnly : Bool := true
  sameSite : String := "Lax"
  expires : Int
  maxAge : Int := 0
  secure : Bool

/-- A JSON body is kept as the value that the encoder is given. -/
inductive Body where
  | json (v : Json)
  | text (s : String)
  | redirect (path : List Char)
  | static (path : List Char)
  | websocket

structure Response where
  status : Nat
  body : Body
  setCookie : Option Cookie := none

def writeJSON (status : Nat) (v : Json) : Response := ⟨status, .json v, none⟩

/-- The JSON object of an error. -/
def errorJSON (text : String) : Json := .obj [("error", .str text)]

def writeError (status : Nat) (text : String) : Response := writeJSON status (errorJSON text)

/-- `http.Error`. -/
def httpError (status : Nat) (text : String) : Response := ⟨status, .text (text ++ "\n"), none⟩

def methodNotAllowed : Response := httpError 405 "Method Not Allowed"

def invalidBody : Response := writeError 400 "invalid JSON body"

/-! ## Access -/

variable (s : Server)

def authRequired : Bool := !s.authDisabled

def currentSession (ctx : Context) : Option Auth.Session := if s.authRequired then ctx else none

def currentUser (ctx : Context) : Option Auth.User :=
  (s.currentSession ctx).map fun session => ⟨session.userID, session.username, session.role⟩

/-- The user, or the response that refuses the request. -/
def requireAdmin (ctx : Context) : Except Response Auth.User :=
  match s.currentUser ctx with
  | none => .error (writeError 401 "unauthorized")
  | some user =>
    if user.role ≠ .admin then .error (writeError 403 "forbidden") else .ok user

def requireAlertMutationAccess (ctx : Context) : Except Response Unit :=
  if s.authDisabled then .error (writeError 403 "read-only in public mode")
  else (s.requireAdmin ctx).map fun _ => ()

/-- Whether a request with this context is an administrator's. -/
def IsAdmin (ctx : Context) : Prop := s.authDisabled = false ∧ ∃ x, ctx = some x ∧ x.role = .admin

variable {s}

theorem isAdmin_of_requireAdmin {ctx : Context} {user : Auth.User}
    (h : s.requireAdmin ctx = .ok user) : s.IsAdmin ctx := by
  unfold requireAdmin currentUser currentSession authRequired at h
  cases hauth : s.authDisabled with
  | true =>
    simp only [hauth] at h
    cases h
  | false =>
    cases ctx with
    | none =>
      simp only [hauth] at h
      cases h
    | some x =>
      refine ⟨hauth, x, rfl, ?_⟩
      simp only [hauth, Bool.not_false, if_true, Option.map_some] at h
      split_ifs at h with hrole
      exact not_not.1 hrole

theorem isAdmin_of_requireAlertMutationAccess {ctx : Context}
    (h : s.requireAlertMutationAccess ctx = .ok ()) : s.IsAdmin ctx := by
  unfold requireAlertMutationAccess at h
  split_ifs at h
  cases hadmin : s.requireAdmin ctx with
  | error resp =>
    rw [hadmin] at h
    cases h
  | ok user => exact isAdmin_of_requireAdmin hadmin

end Server

end QuickVps
