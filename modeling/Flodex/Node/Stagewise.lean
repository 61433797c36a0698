import Flodex.Node.Stages

/-!
# Two requests that got as far

Requests of two states that got to the same stage go on alike. `Stagewise.next` reduces what an
action does to them to the functions behind the stages, for any relation of the states.
-/

namespace Flodex.Node

variable {W : Type*}

/-- The action on another request. -/
def Action.onRequest (j : ℕ) : Action W → Action W
  | .gate _ now => .gate j now
  | .ethCall _ returndata => .ethCall j returndata
  | .gateFetched _ now => .gateFetched j now
  | .backendStep _ fuel w now => .backendStep j fuel w now
  | .respond _ now => .respond j now
  | a => a

variable {cfg : Config W} {R : State → State → Prop} {u t : State} {k j : ℕ}
  {req : EncryptedRequest} {stage : Stage} {a : Action W}

theorem request_onRequest (ha : a.request = some k) (j : ℕ) :
    (a.onRequest j).request = some j := by
  cases a with
  | receive | ack | snapshot => simp [Action.request] at ha
  | gate | ethCall | gateFetched | backendStep | respond => rfl

theorem onRequest_self (ha : a.request = some k) : a.onRequest k = a := by
  cases a with
  | receive | ack | snapshot => rfl
  | gate | ethCall | gateFetched | backendStep | respond =>
    obtain rfl := Option.some.inj ha
    rfl

/-- The requests got as far, and the states are related whatever is done at a stage. -/
structure Stagewise (cfg : Config W) (R : State → State → Prop) (u t : State) (k j : ℕ)
    (req : EncryptedRequest) (stage : Stage) : Prop where
  left : u.flights k = some ⟨req, stage⟩
  right : t.flights j = some ⟨req, stage⟩
  idle : R u t
  setStage : ∀ stage', R (u.setStage k req stage') (t.setStage j req stage')
  gate : ∀ step now, R (gate cfg u k req step now) (gate cfg t j req step now)
  gateFetched : ∀ step now cumOwed returndata,
    R (gateFetched cfg u k req step now cumOwed returndata)
      (gateFetched cfg t j req step now cumOwed returndata)
  backendStep : ∀ step fuel w now,
    R (backendStep cfg u k req step fuel w now) (backendStep cfg t j req step fuel w now)
  respond : ∀ response now, R (respond cfg u k req response now) (respond cfg t j req response now)

/-- **An action leaves the states related.** -/
theorem Stagewise.next (S : Stagewise cfg R u t k j req stage) (ha : a.request = some k) :
    R (next cfg u a) (next cfg t (a.onRequest j)) := by
  obtain ⟨hk, hj, idle, setStage, gate, gateFetched, backendStep, respond⟩ := S
  cases a with
  | receive | ack | snapshot => simp [Action.request] at ha
  | gate k' now =>
    obtain rfl := Option.some.inj ha
    cases stage with
    | opened step => simpa only [Node.next, Action.onRequest, hk, hj] using gate step now
    | asked | fetched | admitted | answered | done =>
      simpa only [Node.next, Action.onRequest, hk, hj] using idle
  | ethCall k' returndata =>
    obtain rfl := Option.some.inj ha
    cases stage with
    | asked step cumOwed => simpa only [Node.next, Action.onRequest, hk, hj] using setStage _
    | opened | fetched | admitted | answered | done =>
      simpa only [Node.next, Action.onRequest, hk, hj] using idle
  | gateFetched k' now =>
    obtain rfl := Option.some.inj ha
    cases stage with
    | fetched step cumOwed returndata =>
      simpa only [Node.next, Action.onRequest, hk, hj] using
        gateFetched step now cumOwed returndata
    | opened | asked | admitted | answered | done =>
      simpa only [Node.next, Action.onRequest, hk, hj] using idle
  | backendStep k' fuel w now =>
    obtain rfl := Option.some.inj ha
    cases stage with
    | admitted step =>
      simpa only [Node.next, Action.onRequest, hk, hj] using backendStep step fuel w now
    | opened | asked | fetched | answered | done =>
      simpa only [Node.next, Action.onRequest, hk, hj] using idle
  | respond k' now =>
    obtain rfl := Option.some.inj ha
    cases stage with
    | answered response =>
      simpa only [Node.next, Action.onRequest, hk, hj] using respond response now
    | opened | asked | fetched | admitted | done =>
      simpa only [Node.next, Action.onRequest, hk, hj] using idle

end Flodex.Node
