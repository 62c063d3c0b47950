import Mathlib

/-!
# Lib — Intervals

Intervals over points that a comparison ranks, each end absent, inclusive or
exclusive: intersection, emptiness and disjointness by comparing ends only,
and what they say of the points inside. Between two ranks there is a third
and beyond each one another, so the ends decide, but below the least rank
there is nothing.
-/

namespace Intervals

variable {β α : Type}

/-- An interval with optional ends. -/
structure Interval (β : Type) where
  low : Option β := none
  lowInclusive : Bool := true
  high : Option β := none
  highInclusive : Bool := true
deriving DecidableEq

/-! ## The algebra -/

section Algebra

variable (order : β → β → Ordering)

/-- The tighter of two lower ends. -/
def tighterLow (low : Option β) (inclusive : Bool) (other : Option β) (otherInclusive : Bool) :
    Option β × Bool :=
  match other with
  | none => (low, inclusive)
  | some b =>
    match low with
    | none => (some b, otherInclusive)
    | some a =>
      match order b a with
      | .gt => (some b, otherInclusive)
      | .eq => (some a, inclusive && otherInclusive)
      | .lt => (some a, inclusive)

/-- The tighter of two upper ends. -/
def tighterHigh (high : Option β) (inclusive : Bool) (other : Option β) (otherInclusive : Bool) :
    Option β × Bool :=
  match other with
  | none => (high, inclusive)
  | some b =>
    match high with
    | none => (some b, otherInclusive)
    | some a =>
      match order b a with
      | .lt => (some b, otherInclusive)
      | .eq => (some a, inclusive && otherInclusive)
      | .gt => (some a, inclusive)

def intersect (left right : Interval β) : Interval β :=
  let low := tighterLow order left.low left.lowInclusive right.low right.lowInclusive
  let high := tighterHigh order left.high left.highInclusive right.high right.highInclusive
  { low := low.1, lowInclusive := low.2, high := high.1, highInclusive := high.2 }

/-- A lower end and an upper end leave nothing between them. -/
def crossed (low : Option β) (lowInclusive : Bool) (high : Option β) (highInclusive : Bool) : Bool :=
  match low, high with
  | some a, some b =>
    match order a b with
    | .gt => true
    | .eq => !(lowInclusive && highInclusive)
    | .lt => false
  | _, _ => false

def isEmpty (interval : Interval β) : Bool :=
  crossed order interval.low interval.lowInclusive interval.high interval.highInclusive

/-- The ends of one interval exclude those of the other. -/
def disjoint (left right : Interval β) : Bool :=
  isEmpty order left || isEmpty order right ||
    crossed order right.low right.lowInclusive left.high left.highInclusive ||
    crossed order left.low left.lowInclusive right.high right.highInclusive

theorem low_intersect (left right : Interval β) :
    (intersect order left right).low = left.low ∨ (intersect order left right).low = right.low := by
  unfold intersect tighterLow
  cases hr : right.low with
  | none => exact .inl rfl
  | some b =>
      cases hl : left.low with
      | none => exact .inr rfl
      | some a =>
          dsimp only
          cases order b a
          · exact .inl rfl
          · exact .inl rfl
          · exact .inr rfl

theorem high_intersect (left right : Interval β) :
    (intersect order left right).high = left.high ∨
      (intersect order left right).high = right.high := by
  unfold intersect tighterHigh
  cases hr : right.high with
  | none => exact .inl rfl
  | some b =>
      cases hl : left.high with
      | none => exact .inr rfl
      | some a =>
          dsimp only
          cases order b a
          · exact .inr rfl
          · exact .inl rfl
          · exact .inl rfl

end Algebra

/-! ## Points -/

section Points

variable [LinearOrder α]

/-- A comparison by rank, in an order of ranks that is dense, without a
greatest and with a least point. -/
structure Ranked (order : β → β → Ordering) (rank : β → α) (least : β) : Prop where
  order : ∀ a b, order a b = cmp (rank a) (rank b)
  between : ∀ a b, rank a < rank b → ∃ c, rank a < rank c ∧ rank c < rank b
  beyond : ∀ a, ∃ c, rank a < rank c
  least : ∀ a, rank least ≤ rank a

variable {order : β → β → Ordering} (rank : β → α) {least : β}

def Above (low : Option β) (inclusive : Bool) (v : β) : Prop :=
  ∀ a, low = some a → rank a < rank v ∨ inclusive = true ∧ rank a = rank v

def Below (high : Option β) (inclusive : Bool) (v : β) : Prop :=
  ∀ b, high = some b → rank v < rank b ∨ inclusive = true ∧ rank v = rank b

/-- The point lies in the interval. -/
def Mem (interval : Interval β) (v : β) : Prop :=
  Above rank interval.low interval.lowInclusive v ∧
    Below rank interval.high interval.highInclusive v

/-- The interval reaches down without end, and ends below the least point. -/
def Sunken (least : β) (interval : Interval β) : Prop :=
  interval.low = none ∧ interval.highInclusive = false ∧
    ∃ b, interval.high = some b ∧ rank b = rank least

variable {rank}

theorem above_none {inclusive : Bool} {v : β} : Above rank none inclusive v := by
  intro a ha
  cases ha

theorem below_none {inclusive : Bool} {v : β} : Below rank none inclusive v := by
  intro a ha
  cases ha

theorem above_some {a v : β} {inclusive : Bool} :
    Above rank (some a) inclusive v ↔ rank a < rank v ∨ inclusive = true ∧ rank a = rank v := by
  constructor
  · intro h
    exact h a rfl
  · intro h b hb
    cases hb
    exact h

theorem below_some {b v : β} {inclusive : Bool} :
    Below rank (some b) inclusive v ↔ rank v < rank b ∨ inclusive = true ∧ rank v = rank b := by
  constructor
  · intro h
    exact h b rfl
  · intro h a ha
    cases ha
    exact h

theorem above_inclusive {a v : β} : Above rank (some a) true v ↔ rank a ≤ rank v := by
  rw [above_some, le_iff_lt_or_eq]
  simp

theorem above_exclusive {a v : β} : Above rank (some a) false v ↔ rank a < rank v := by
  rw [above_some]
  simp

theorem below_inclusive {b v : β} : Below rank (some b) true v ↔ rank v ≤ rank b := by
  rw [below_some, le_iff_lt_or_eq]
  simp

theorem below_exclusive {b v : β} : Below rank (some b) false v ↔ rank v < rank b := by
  rw [below_some]
  simp

theorem mem_unbounded (v : β) : Mem rank {} v := ⟨above_none, below_none⟩

theorem mem_point {a v : β} : Mem rank { low := some a, high := some a } v ↔ rank v = rank a := by
  unfold Mem
  rw [above_inclusive, below_inclusive]
  exact ⟨fun h => le_antisymm h.2 h.1, fun h => ⟨h.ge, h.le⟩⟩

theorem mem_span {a b v : β} :
    Mem rank { low := some a, high := some b, highInclusive := false } v ↔
      rank a ≤ rank v ∧ rank v < rank b := by
  unfold Mem
  rw [above_inclusive, below_exclusive]

theorem mem_congr {interval : Interval β} {v w : β} (h : rank v = rank w) :
    Mem rank interval v ↔ Mem rank interval w := by
  unfold Mem Above Below
  rw [h]

namespace Ranked

theorem above_tighterLow (h : Ranked order rank least) (low other : Option β)
    (inclusive otherInclusive : Bool) (v : β) :
    Above rank (tighterLow order low inclusive other otherInclusive).1
        (tighterLow order low inclusive other otherInclusive).2 v ↔
      Above rank low inclusive v ∧ Above rank other otherInclusive v := by
  unfold tighterLow
  cases other with
  | none => exact (and_iff_left above_none).symm
  | some b =>
      cases low with
      | none => exact (and_iff_right above_none).symm
      | some a =>
          simp only [h.order]
          cases hcmp : cmp (rank b) (rank a) with
          | gt =>
              have hlt : rank a < rank b := cmp_eq_gt_iff _ _ |>.mp hcmp
              rw [above_some, above_some]
              refine (and_iff_right_of_imp fun hb => .inl ?_).symm
              rcases hb with hb | ⟨-, hb⟩
              · exact hlt.trans hb
              · exact hb ▸ hlt
          | eq =>
              have heq : rank b = rank a := cmp_eq_eq_iff _ _ |>.mp hcmp
              rw [above_some, above_some, above_some, heq, Bool.and_eq_true]
              tauto
          | lt =>
              have hlt : rank b < rank a := cmp_eq_lt_iff _ _ |>.mp hcmp
              rw [above_some, above_some]
              refine (and_iff_left_of_imp fun ha => .inl ?_).symm
              rcases ha with ha | ⟨-, ha⟩
              · exact hlt.trans ha
              · exact ha ▸ hlt

theorem below_tighterHigh (h : Ranked order rank least) (high other : Option β)
    (inclusive otherInclusive : Bool) (v : β) :
    Below rank (tighterHigh order high inclusive other otherInclusive).1
        (tighterHigh order high inclusive other otherInclusive).2 v ↔
      Below rank high inclusive v ∧ Below rank other otherInclusive v := by
  unfold tighterHigh
  cases other with
  | none => exact (and_iff_left below_none).symm
  | some b =>
      cases high with
      | none => exact (and_iff_right below_none).symm
      | some a =>
          simp only [h.order]
          cases hcmp : cmp (rank b) (rank a) with
          | lt =>
              have hlt : rank b < rank a := cmp_eq_lt_iff _ _ |>.mp hcmp
              rw [below_some, below_some]
              refine (and_iff_right_of_imp fun hb => .inl ?_).symm
              rcases hb with hb | ⟨-, hb⟩
              · exact hb.trans hlt
              · exact hb ▸ hlt
          | eq =>
              have heq : rank b = rank a := cmp_eq_eq_iff _ _ |>.mp hcmp
              rw [below_some, below_some, below_some, heq, Bool.and_eq_true]
              tauto
          | gt =>
              have hlt : rank a < rank b := cmp_eq_gt_iff _ _ |>.mp hcmp
              rw [below_some, below_some]
              refine (and_iff_left_of_imp fun ha => .inl ?_).symm
              rcases ha with ha | ⟨-, ha⟩
              · exact ha.trans hlt
              · exact ha ▸ hlt

/-- The intersection holds the common points. -/
theorem mem_intersect (h : Ranked order rank least) (left right : Interval β) (v : β) :
    Mem rank (intersect order left right) v ↔ Mem rank left v ∧ Mem rank right v := by
  unfold Mem intersect
  dsimp only
  rw [h.above_tighterLow, h.below_tighterHigh]
  tauto

/-- Ends that cross have no point between them. -/
theorem not_between_of_crossed (h : Ranked order rank least) {low high : Option β}
    {lowInclusive highInclusive : Bool}
    (hcrossed : crossed order low lowInclusive high highInclusive = true) {v : β}
    (hlow : Above rank low lowInclusive v) (hhigh : Below rank high highInclusive v) : False := by
  unfold crossed at hcrossed
  cases low with
  | none => cases hcrossed
  | some a =>
      cases high with
      | none => cases hcrossed
      | some b =>
          rw [above_some] at hlow
          rw [below_some] at hhigh
          simp only [h.order] at hcrossed
          have hle : rank a ≤ rank b := by
            have hav : rank a ≤ rank v := hlow.elim le_of_lt fun heq => heq.2.le
            have hvb : rank v ≤ rank b := hhigh.elim le_of_lt fun heq => heq.2.le
            exact hav.trans hvb
          cases hcmp : cmp (rank a) (rank b) with
          | lt =>
              rw [hcmp] at hcrossed
              cases hcrossed
          | gt => exact absurd hle (not_le_of_gt (cmp_eq_gt_iff _ _ |>.mp hcmp))
          | eq =>
              have heq : rank a = rank b := cmp_eq_eq_iff _ _ |>.mp hcmp
              rw [hcmp] at hcrossed
              rcases hlow with hlow | ⟨hin, hlow⟩
              · rcases hhigh with hhigh | ⟨-, hhigh⟩
                · exact absurd (hlow.trans hhigh) (heq ▸ lt_irrefl _)
                · exact absurd (hhigh ▸ hlow) (heq ▸ lt_irrefl _)
              · rcases hhigh with hhigh | ⟨hin', -⟩
                · exact absurd (hlow ▸ hhigh) (heq ▸ lt_irrefl _)
                · rw [hin, hin'] at hcrossed
                  cases hcrossed

/-- Ends that do not cross have a point between them, unless the upper one
lies below the least point. -/
theorem exists_between (h : Ranked order rank least) {low high : Option β}
    {lowInclusive highInclusive : Bool}
    (hcrossed : crossed order low lowInclusive high highInclusive = false)
    (hsunken : ¬ (low = none ∧ highInclusive = false ∧ ∃ b, high = some b ∧ rank b = rank least)) :
    ∃ v, Above rank low lowInclusive v ∧ Below rank high highInclusive v := by
  cases low with
  | none =>
      cases high with
      | none => exact ⟨least, above_none, below_none⟩
      | some b =>
          refine ⟨least, above_none, below_some.mpr ?_⟩
          rcases (h.least b).lt_or_eq with hlt | heq
          · exact .inl hlt
          · refine .inr ⟨?_, heq⟩
            by_contra hexclusive
            exact hsunken ⟨rfl, Bool.eq_false_iff.mpr hexclusive, b, rfl, heq.symm⟩
  | some a =>
      cases high with
      | none =>
          obtain ⟨c, hc⟩ := h.beyond a
          exact ⟨c, above_some.mpr (.inl hc), below_none⟩
      | some b =>
          unfold crossed at hcrossed
          simp only [h.order] at hcrossed
          cases hcmp : cmp (rank a) (rank b) with
          | gt =>
              rw [hcmp] at hcrossed
              cases hcrossed
          | lt =>
              obtain ⟨c, hac, hcb⟩ := h.between a b (cmp_eq_lt_iff _ _ |>.mp hcmp)
              exact ⟨c, above_some.mpr (.inl hac), below_some.mpr (.inl hcb)⟩
          | eq =>
              have heq : rank a = rank b := cmp_eq_eq_iff _ _ |>.mp hcmp
              rw [hcmp, Bool.not_eq_false', Bool.and_eq_true] at hcrossed
              exact ⟨a, above_some.mpr (.inr ⟨hcrossed.1, rfl⟩),
                below_some.mpr (.inr ⟨hcrossed.2, heq⟩)⟩

theorem not_mem_of_isEmpty (h : Ranked order rank least) {interval : Interval β}
    (hempty : isEmpty order interval = true) (v : β) : ¬ Mem rank interval v :=
  fun hv => h.not_between_of_crossed hempty hv.1 hv.2

/-- An interval that is not empty by its ends has a point, unless it is
sunken. -/
theorem exists_mem (h : Ranked order rank least) {interval : Interval β}
    (hempty : isEmpty order interval = false) (hsunken : ¬ Sunken rank least interval) :
    ∃ v, Mem rank interval v :=
  h.exists_between hempty hsunken

/-- An intersection ends below the least point only when one of the two
intervals does. -/
theorem sunken_of_intersect (h : Ranked order rank least) {left right : Interval β}
    (hsunken : Sunken rank least (intersect order left right)) :
    Sunken rank least left ∨ Sunken rank least right := by
  obtain ⟨left, leftInclusive, leftHigh, leftHighInclusive⟩ := left
  obtain ⟨right, rightInclusive, rightHigh, rightHighInclusive⟩ := right
  obtain ⟨hlow, hexclusive, b, hhigh, hleast⟩ := hsunken
  have hnone : left = none ∧ right = none := by
    simp only [intersect, tighterLow] at hlow
    cases right with
    | none => exact ⟨hlow, rfl⟩
    | some b =>
        cases left with
        | none => cases hlow
        | some a =>
            dsimp only at hlow
            split at hlow <;> cases hlow
  obtain ⟨rfl, rfl⟩ := hnone
  simp only [intersect, tighterHigh] at hhigh hexclusive
  cases rightHigh with
  | none => exact .inl ⟨rfl, hexclusive, b, hhigh, hleast⟩
  | some y =>
      cases leftHigh with
      | none => exact .inr ⟨rfl, hexclusive, b, hhigh, hleast⟩
      | some x =>
          dsimp only at hhigh hexclusive
          rw [h.order] at hhigh hexclusive
          cases hcmp : cmp (rank y) (rank x) with
          | lt =>
              rw [hcmp] at hhigh hexclusive
              exact .inr ⟨rfl, hexclusive, b, hhigh, hleast⟩
          | gt =>
              rw [hcmp] at hhigh hexclusive
              exact .inl ⟨rfl, hexclusive, b, hhigh, hleast⟩
          | eq =>
              have heq : rank y = rank x := cmp_eq_eq_iff _ _ |>.mp hcmp
              rw [hcmp] at hhigh hexclusive
              cases hhigh
              cases leftHighInclusive with
              | false => exact .inl ⟨rfl, rfl, b, rfl, hleast⟩
              | true => exact .inr ⟨rfl, hexclusive, y, rfl, heq.trans hleast⟩

/-! ## Disjointness -/

theorem crossed_tighterLow (h : Ranked order rank least) (low other high : Option β)
    (inclusive otherInclusive highInclusive : Bool) :
    crossed order (tighterLow order low inclusive other otherInclusive).1
        (tighterLow order low inclusive other otherInclusive).2 high highInclusive =
      (crossed order low inclusive high highInclusive ||
        crossed order other otherInclusive high highInclusive) := by
  unfold tighterLow
  cases other with
  | none => simp [crossed]
  | some b =>
      cases low with
      | none => simp [crossed]
      | some a =>
          cases high with
          | none =>
              simp only [h.order]
              cases cmp (rank b) (rank a) <;> rfl
          | some c =>
              unfold crossed
              simp only [h.order]
              rcases lt_trichotomy (rank b) (rank a) with hba | hba | hba
              · rw [cmp_eq_lt_iff _ _ |>.mpr hba]
                dsimp only
                rcases lt_trichotomy (rank b) (rank c) with hbc | hbc | hbc
                · rw [cmp_eq_lt_iff _ _ |>.mpr hbc]
                  simp
                · rw [cmp_eq_gt_iff (rank a) (rank c) |>.mpr (hbc ▸ hba)]
                  simp
                · rw [cmp_eq_gt_iff (rank a) (rank c) |>.mpr (hbc.trans hba)]
                  simp
              · rw [cmp_eq_eq_iff _ _ |>.mpr hba, hba]
                dsimp only
                cases cmp (rank a) (rank c) <;> cases inclusive <;> cases otherInclusive <;>
                  cases highInclusive <;> rfl
              · rw [cmp_eq_gt_iff _ _ |>.mpr hba]
                dsimp only
                rcases lt_trichotomy (rank a) (rank c) with hac | hac | hac
                · rw [cmp_eq_lt_iff _ _ |>.mpr hac]
                  simp
                · rw [cmp_eq_gt_iff (rank b) (rank c) |>.mpr (hac ▸ hba)]
                  simp
                · rw [cmp_eq_gt_iff (rank b) (rank c) |>.mpr (hac.trans hba)]
                  simp

theorem crossed_tighterHigh (h : Ranked order rank least) (low high other : Option β)
    (lowInclusive inclusive otherInclusive : Bool) :
    crossed order low lowInclusive (tighterHigh order high inclusive other otherInclusive).1
        (tighterHigh order high inclusive other otherInclusive).2 =
      (crossed order low lowInclusive high inclusive ||
        crossed order low lowInclusive other otherInclusive) := by
  unfold tighterHigh
  cases other with
  | none => cases low <;> simp [crossed]
  | some b =>
      cases high with
      | none => cases low <;> simp [crossed]
      | some a =>
          cases low with
          | none =>
              simp only [h.order]
              cases cmp (rank b) (rank a) <;> rfl
          | some c =>
              unfold crossed
              simp only [h.order]
              rcases lt_trichotomy (rank b) (rank a) with hba | hba | hba
              · rw [cmp_eq_lt_iff _ _ |>.mpr hba]
                dsimp only
                rcases lt_trichotomy (rank c) (rank a) with hca | hca | hca
                · rw [cmp_eq_lt_iff (rank c) (rank a) |>.mpr hca]
                  simp
                · rw [cmp_eq_gt_iff (rank c) (rank b) |>.mpr (hca ▸ hba)]
                  simp
                · rw [cmp_eq_gt_iff (rank c) (rank b) |>.mpr (hba.trans hca)]
                  simp
              · rw [cmp_eq_eq_iff _ _ |>.mpr hba, hba]
                dsimp only
                cases cmp (rank c) (rank a) <;> cases inclusive <;> cases otherInclusive <;>
                  cases lowInclusive <;> rfl
              · rw [cmp_eq_gt_iff _ _ |>.mpr hba]
                dsimp only
                rcases lt_trichotomy (rank c) (rank b) with hcb | hcb | hcb
                · rw [cmp_eq_lt_iff (rank c) (rank b) |>.mpr hcb]
                  simp
                · rw [cmp_eq_gt_iff (rank c) (rank a) |>.mpr (hcb ▸ hba)]
                  simp
                · rw [cmp_eq_gt_iff (rank c) (rank a) |>.mpr (hba.trans hcb)]
                  simp

/-- Two intervals are disjoint by their ends exactly when their intersection
is empty by its own. -/
theorem disjoint_eq (h : Ranked order rank least) (left right : Interval β) :
    disjoint order left right = isEmpty order (intersect order left right) := by
  unfold disjoint isEmpty intersect
  dsimp only
  rw [h.crossed_tighterLow, h.crossed_tighterHigh, h.crossed_tighterHigh]
  cases crossed order left.low left.lowInclusive left.high left.highInclusive <;>
    cases crossed order right.low right.lowInclusive right.high right.highInclusive <;>
    cases crossed order right.low right.lowInclusive left.high left.highInclusive <;>
    cases crossed order left.low left.lowInclusive right.high right.highInclusive <;> rfl

end Ranked

end Points

end Intervals
