import Authguard.Authn.StandaloneLogin
import Authguard.Library.SingleUse

/-!
The challenges of the interactive ceremonies as their handlers see them
(`put_json` and `consume_json` in `authn/src/authentication/challenge.rs`): the payloads
of one purpose under their identifiers. What waits under an identifier may be over by the
time a call is made.
-/

namespace Authguard.SingleUse.Store

variable {ν : Type} (store : Store String ν)

def putJson (task : Nat) (challengeId : String) (payload : ν) :
    CallOutcome → Except ChallengeError Unit × Store String ν
  | .answered _ =>
      match store.find challengeId with
      | some _ => (.error .backend, store)
      | none => (.ok (), store.put task challengeId payload)
  | .expired => (.ok (), store.put task challengeId payload)
  | .failed _ => (.error .backend, store)
  | .lost _ _ =>
      match store.find challengeId with
      | some _ => (.error .backend, store)
      | none => (.error .backend, store.put task challengeId payload)

def consumeJson (task : Nat) (challengeId : String) :
    CallOutcome → Except ChallengeError (Option ν) × Store String ν
  | .answered _ => (.ok (store.take task challengeId).1, (store.take task challengeId).2)
  | .expired => (.ok none, store.discard challengeId)
  | .failed _ => (.error .backend, store)
  | .lost _ _ => (.error .backend, store.discard challengeId)

/-! What a call keeps. -/

/-- The journal grows and stays sound. -/
structure Keeps (May : Nat → String → ν → Prop) (store after : Store String ν) : Prop where
  journal : store.journal <+: after.journal
  sound : store.Sound May → after.Sound May

variable {May : Nat → String → ν → Prop} {store}

theorem Keeps.rfl : Keeps May store store := ⟨List.prefix_refl _, id⟩

theorem keeps_discard (challengeId : String) : Keeps May store (store.discard challengeId) where
  journal := List.prefix_refl _
  sound h := h.discard challengeId

theorem keeps_put {task : Nat} {challengeId : String} {payload : ν}
    (hmay : May task challengeId payload) :
    Keeps May store (store.put task challengeId payload) where
  journal := store.journal_put task challengeId payload
  sound h := h.put_sound hmay

theorem keeps_putJson {task : Nat} {challengeId : String} {payload : ν}
    (hmay : May task challengeId payload) (outcome : CallOutcome) :
    Keeps May store (store.putJson task challengeId payload outcome).2 := by
  cases outcome with
  | answered now | lost message now =>
      simp only [putJson]
      split
      · exact .rfl
      · exact keeps_put hmay
  | expired => exact keeps_put hmay
  | failed message => exact .rfl

theorem journal_putJson (store : Store String ν) (task : Nat) (challengeId : String) (payload : ν)
    (outcome : CallOutcome) :
    store.journal <+: (store.putJson task challengeId payload outcome).2.journal :=
  have hkeeps : Keeps (fun _ _ _ => True) store
      (store.putJson task challengeId payload outcome).2 := keeps_putJson trivial outcome
  hkeeps.journal

theorem keeps_consumeJson (task : Nat) (challengeId : String) (outcome : CallOutcome) :
    Keeps May store (store.consumeJson task challengeId outcome).2 := by
  cases outcome with
  | answered now =>
      exact ⟨store.journal_take task challengeId, fun h => h.take_sound task challengeId⟩
  | failed message => exact .rfl
  | expired | lost message now => exact keeps_discard challengeId

theorem journal_consumeJson (store : Store String ν) (task : Nat) (challengeId : String)
    (outcome : CallOutcome) :
    store.journal <+: (store.consumeJson task challengeId outcome).2.journal :=
  have hkeeps : Keeps (fun _ _ _ => True) store
      (store.consumeJson task challengeId outcome).2 := keeps_consumeJson task challengeId outcome
  hkeeps.journal

/-- A challenge that a call answers with was taken by its task. -/
theorem taken_consumeJson {task : Nat} {challengeId : String} {outcome : CallOutcome} {payload : ν}
    (h : (store.consumeJson task challengeId outcome).1 = .ok (some payload)) :
    ∃ origin, .taken task origin challengeId payload ∈
      (store.consumeJson task challengeId outcome).2.journal := by
  cases outcome with
  | answered now => exact taken_take (Except.ok.inj h)
  | expired | failed message | lost message now => cases h

end Authguard.SingleUse.Store
