import Mathlib.Data.List.Forall2
import Mathlib.Data.List.Induction
import Mathlib.Tactic.Common

/-!
# Lib — Outcome

Computations that may fail, taken apart: how a sequence of them succeeds
or fails.
-/

namespace Outcome

variable {ε α β σ : Type}

/-- A bind succeeds through both of its parts. -/
theorem bind_ok {x : Except ε α} {f : α → Except ε β} {b : β} (h : x >>= f = .ok b) :
    ∃ a, x = .ok a ∧ f a = .ok b := by
  cases x with
  | error e => cases h
  | ok a => exact ⟨a, rfl, h⟩

theorem bind_of_ok {x : Except ε α} {f : α → Except ε β} {a : α} {r : Except ε β}
    (hx : x = .ok a) (hf : f a = r) : x >>= f = r := by
  subst hx
  exact hf

/-- A bind fails in one of its parts. -/
theorem bind_error {x : Except ε α} {f : α → Except ε β} {e : ε} (h : x >>= f = .error e) :
    x = .error e ∨ ∃ a, x = .ok a ∧ f a = .error e := by
  cases x with
  | error e' =>
    cases h
    exact .inl rfl
  | ok a => exact .inr ⟨a, rfl, h⟩

theorem map_ok {x : Except ε α} {f : α → β} {b : β} (h : x.map f = .ok b) :
    ∃ a, x = .ok a ∧ f a = b := by
  cases x with
  | error e => cases h
  | ok a => exact ⟨a, rfl, Except.ok.inj h⟩

theorem exists_ok_of_isSome {x : Except ε α} (h : x.toOption.isSome) :
    ∃ a, x = .ok a := by
  cases x with
  | error e => cases h
  | ok a => exact ⟨a, rfl⟩

theorem not_ok_of_isNone {x : Except ε α} (h : x.toOption.isNone) (a : α) :
    x ≠ .ok a := by
  rintro rfl
  cases h

theorem exists_of_forall₂ {R : α → β → Prop} {l : List α} {l' : List β} (h : List.Forall₂ R l l')
    {b : β} (hb : b ∈ l') : ∃ a ∈ l, R a b := by
  induction h with
  | nil => cases hb
  | @cons a b' rest rest' hab _ ih =>
    rcases List.mem_cons.mp hb with rfl | hb
    · exact ⟨a, List.mem_cons_self, hab⟩
    · obtain ⟨a', ha', hrel⟩ := ih hb
      exact ⟨a', List.mem_cons_of_mem a ha', hrel⟩

/-- `mapM` where every call succeeds. -/
theorem mapM_ok {f : α → Except ε β} {g : α → β} {l : List α} (h : ∀ a ∈ l, f a = .ok (g a)) :
    l.mapM f = .ok (l.map g) := by
  induction l with
  | nil => rfl
  | cons a rest ih =>
    rw [List.mapM_cons, h a List.mem_cons_self, ih fun b hb => h b (List.mem_cons_of_mem _ hb)]
    rfl

/-- The values of a successful `mapM`. -/
theorem mapM_ok_values {f : α → Except ε β} {l : List α} {bs : List β} (h : l.mapM f = .ok bs) :
    List.Forall₂ (fun a b => f a = .ok b) l bs := by
  induction l generalizing bs with
  | nil =>
    cases h
    exact .nil
  | cons a rest ih =>
    rw [List.mapM_cons] at h
    obtain ⟨b, hb, h⟩ := bind_ok h
    obtain ⟨later, hlater, h⟩ := bind_ok h
    cases h
    exact .cons hb (ih hlater)

theorem mapM_of_values {f : α → Except ε β} {l : List α} {bs : List β}
    (h : List.Forall₂ (fun a b => f a = .ok b) l bs) : l.mapM f = .ok bs := by
  induction h with
  | nil => rfl
  | cons hb _ ih =>
    rw [List.mapM_cons, hb, ih]
    rfl

theorem mapM_ok_mem {f : α → Except ε β} {l : List α} {bs : List β} (h : l.mapM f = .ok bs) :
    ∀ a ∈ l, ∃ b, f a = .ok b := by
  intro a ha
  obtain ⟨b, -, hb⟩ := exists_of_forall₂ (mapM_ok_values h).flip ha
  exact ⟨b, hb⟩

/-- What a list was read from. -/
theorem exists_of_mapM {f : α → Except ε β} {l : List α} {bs : List β} (h : l.mapM f = .ok bs)
    {b : β} (hb : b ∈ bs) : ∃ a ∈ l, f a = .ok b :=
  exists_of_forall₂ (mapM_ok_values h) hb

theorem forall₂_of_mapM {f : α → Option β} {l : List α} {bs : List β} (h : l.mapM f = some bs) :
    List.Forall₂ (fun a b => f a = some b) l bs := by
  induction l generalizing bs with
  | nil =>
    rw [List.mapM_nil] at h
    cases h
    exact .nil
  | cons a rest ih =>
    rw [List.mapM_cons] at h
    obtain ⟨head, hhead, h⟩ := Option.bind_eq_some_iff.mp h
    obtain ⟨tail, htail, h⟩ := Option.bind_eq_some_iff.mp h
    cases h
    exact .cons hhead (ih htail)

end Outcome
