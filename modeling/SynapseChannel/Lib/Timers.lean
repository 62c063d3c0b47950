import SynapseChannel.Lib.Dict

/-!
# Lib — Timers

The delayed callbacks of an event loop. A handle is new at every call, so
one that was cancelled or has fired never names a later callback.
-/

namespace Py

/-- The pending callbacks of an event loop, each with when it is due. -/
structure Timers (α τ : Type) where
  pending : Dict Nat (α × τ)
  next : Nat
  fresh : ∀ i ∈ pending.keys, i < next

namespace Timers

variable {α τ : Type}

def empty : Timers α τ where
  pending := Dict.empty
  next := 0
  fresh := by
    intro i hi
    cases hi

def get? (timers : Timers α τ) (handle : Nat) : Option (α × τ) := timers.pending.get? handle

/-- Schedule a callback under a new handle. -/
def callLater (timers : Timers α τ) (callback : α) (due : τ) : Timers α τ where
  pending := timers.pending.set timers.next (callback, due)
  next := timers.next + 1
  fresh := by
    intro i hi
    rw [Dict.mem_keys_iff, Dict.get?_set] at hi
    by_cases h : timers.next = i
    · omega
    · rw [if_neg h, ← Dict.mem_keys_iff] at hi
      exact Nat.lt_succ_of_lt (timers.fresh i hi)

/-- Forget a callback: it was cancelled, or it runs now. -/
def cancel (timers : Timers α τ) (handle : Nat) : Timers α τ where
  pending := timers.pending.erase handle
  next := timers.next
  fresh := by
    intro i hi
    rw [Dict.mem_keys_iff, Dict.get?_erase] at hi
    apply timers.fresh
    rw [Dict.mem_keys_iff]
    intro hnone
    simp [hnone] at hi

/-- Cancel the handle that is held, if one is. -/
def cancelHeld (timers : Timers α τ) : Option Nat → Timers α τ
  | none => timers
  | some handle => timers.cancel handle

@[simp] theorem get?_empty (i : Nat) : (empty : Timers α τ).get? i = none := rfl

theorem get?_next (timers : Timers α τ) : timers.get? timers.next = none := by
  by_contra h
  exact Nat.lt_irrefl _ (timers.fresh _ ((Dict.mem_keys_iff _ _).mpr h))

theorem get?_callLater (timers : Timers α τ) (callback : α) (due : τ) (i : Nat) :
    (timers.callLater callback due).get? i =
      if timers.next = i then some (callback, due) else timers.get? i :=
  Dict.get?_set _ _ _ _

theorem get?_cancel (timers : Timers α τ) (handle i : Nat) :
    (timers.cancel handle).get? i = if i = handle then none else timers.get? i :=
  Dict.get?_erase _ _ _

theorem get?_cancelHeld (timers : Timers α τ) (held : Option Nat) (i : Nat) :
    (timers.cancelHeld held).get? i = if some i = held then none else timers.get? i := by
  cases held with
  | none => simp [cancelHeld]
  | some handle => simp [cancelHeld, get?_cancel]

@[simp] theorem next_cancelHeld (timers : Timers α τ) (held : Option Nat) :
    (timers.cancelHeld held).next = timers.next := by
  cases held <;> rfl

end Timers

end Py
