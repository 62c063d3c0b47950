import SynapseChannel.Lib.Trace

/-!
# Lib — ReplayWindow

A memory of accepted identities that forgets one only once the freshness
test refuses it. Each step of a machine is related to what it does to the
memory; what a whole run accepts follows by induction.
-/

namespace ReplayWindow

variable {ι κ τ γ : Type}

/-- The identities held with their timestamps, and the highest sequence of each channel. -/
structure Memory (ι κ τ : Type) where
  held : ι → Option τ
  floors : κ → Option Int

structure Acceptance (ι κ τ γ : Type) where
  identity : ι
  channel : κ
  sequence : Int
  timestamp : τ
  reading : γ

/-- What was held and is fresh at `now` is held, and nothing else is. -/
def Evicted (stale : τ → γ → Prop) (now : γ) (before after : ι → Option τ) : Prop :=
  ∀ id t, after id = some t ↔ before id = some t ∧ ¬ stale t now

/-- What an acceptance finds in the memory and what it leaves there. -/
structure Admitted (stale : τ → γ → Prop) (ordered : Prop) (m m' : Memory ι κ τ)
    (a : Acceptance ι κ τ γ) : Prop where
  absent : ∀ t, m.held a.identity = some t → stale t a.reading
  recorded : m'.held a.identity = some a.timestamp
  others : ∀ id, id ≠ a.identity → ∀ t,
    m'.held id = some t ↔ m.held id = some t ∧ ¬ stale t a.reading
  above : ordered → ∀ f, m.floors a.channel = some f → f < a.sequence
  floor : ordered → m'.floors a.channel = some a.sequence
  otherFloors : ∀ k, k ≠ a.channel → m'.floors k = m.floors k

/-- One step on the memory, at the reading of the clock that it made, if any. -/
inductive Step (stale : τ → γ → Prop) (ordered : Prop) :
    Option γ → Memory ι κ τ → Option (Acceptance ι κ τ γ) → Memory ι κ τ → Prop where
  | idle (now : Option γ) (m : Memory ι κ τ) : Step stale ordered now m none m
  | forgot (now : γ) {m m' : Memory ι κ τ} (held : Evicted stale now m.held m'.held)
      (floors : m'.floors = m.floors) : Step stale ordered (some now) m none m'
  | admitted {m m' : Memory ι κ τ} {a : Acceptance ι κ τ γ}
      (h : Admitted stale ordered m m' a) : Step stale ordered (some a.reading) m (some a) m'
  /-- An admission that was recorded and then reported as a refusal. -/
  | unanswered {m m' : Memory ι κ τ} {a : Acceptance ι κ τ γ}
      (h : Admitted stale ordered m m' a) : Step stale ordered (some a.reading) m none m'

theorem Admitted.keeps {stale : τ → γ → Prop} {ordered : Prop} {m m' : Memory ι κ τ}
    {a : Acceptance ι κ τ γ} (h : Admitted stale ordered m m' a) {id : ι} {t : τ}
    (hheld : m.held id = some t) (hfresh : ¬ stale t a.reading) : m'.held id = some t := by
  by_cases hid : id = a.identity
  · subst hid
    exact absurd (h.absent t hheld) hfresh
  · exact (h.others id hid t).mpr ⟨hheld, hfresh⟩

/-- An identity that the freshness test lets in is not forgotten. -/
theorem Step.keeps {stale : τ → γ → Prop} {ordered : Prop} {now : Option γ}
    {m m' : Memory ι κ τ} {r : Option (Acceptance ι κ τ γ)} (h : Step stale ordered now m r m')
    {id : ι} {t : τ} (hheld : m.held id = some t)
    (hfresh : ∀ c, now = some c → ¬ stale t c) : m'.held id = some t := by
  cases h with
  | idle => exact hheld
  | forgot now held floors => exact (held id t).mpr ⟨hheld, hfresh now rfl⟩
  | admitted h => exact h.keeps hheld (hfresh _ rfl)
  | unanswered h => exact h.keeps hheld (hfresh _ rfl)

/-! ## Runs -/

variable {σ op : Type} (step : σ → op → σ) (memory : σ → Memory ι κ τ)
  (reading : op → Option γ) (accepted : σ → op → Option (Acceptance ι κ τ γ))

/-- What a run accepts, in order. -/
def log (s : σ) (ops : List op) : List (Acceptance ι κ τ γ) :=
  (Trace.trace step s ops).filterMap fun call => accepted call.1 call.2

theorem log_cons (s : σ) (i : op) (ops : List op) :
    log step accepted s (i :: ops) =
      (accepted s i).toList ++ log step accepted (step s i) ops := by
  unfold log
  rw [Trace.trace, List.filterMap_cons]
  cases accepted s i <;> rfl

/-- Every step of a run is a step on the memory. -/
def Follows (stale : τ → γ → Prop) (ordered : Prop) : σ → List op → Prop :=
  Trace.Every step fun s i =>
    Step stale ordered (reading i) (memory s) (accepted s i) (memory (step s i))

variable {step memory reading accepted} {stale : τ → γ → Prop} {ordered : Prop}

theorem reading_of_mem {s : σ} {ops : List op}
    (h : Follows step memory reading accepted stale ordered s ops) {a : Acceptance ι κ τ γ}
    (ha : a ∈ log step accepted s ops) : a.reading ∈ ops.filterMap reading := by
  induction ops generalizing s with
  | nil => cases ha
  | cons i rest ih =>
    rw [log_cons] at ha
    rw [List.filterMap_cons]
    obtain ⟨hstep, hrest⟩ := h
    rcases List.mem_append.mp ha with ha | ha
    · have haccepted : accepted s i = some a := by simpa using ha
      have hreading : reading i = some a.reading := by
        rw [haccepted] at hstep
        generalize hr : reading i = r at hstep
        cases hstep with
        | admitted => rfl
      rw [hreading]
      exact List.mem_cons_self
    · have hmem := ih hrest ha
      cases reading i with
      | none => exact hmem
      | some c => exact List.mem_cons_of_mem _ hmem

variable [LE γ]

theorem reading_le {i : op} {rest : List op} {c d : γ}
    (h : ((i :: rest).filterMap reading).Pairwise (· ≤ ·)) (hc : reading i = some c)
    (hd : d ∈ rest.filterMap reading) : c ≤ d := by
  rw [List.filterMap_cons, hc] at h
  exact (List.pairwise_cons.mp h).1 d hd

theorem pairwise_rest {i : op} {rest : List op}
    (h : ((i :: rest).filterMap reading).Pairwise (· ≤ ·)) :
    (rest.filterMap reading).Pairwise (· ≤ ·) := by
  rw [List.filterMap_cons] at h
  cases hr : reading i with
  | none => rwa [hr] at h
  | some c =>
    rw [hr] at h
    exact (List.pairwise_cons.mp h).2

/-- An identity that is held is accepted only once its timestamp has gone stale. -/
theorem held_stale (hmono : ∀ t c d, c ≤ d → stale t c → stale t d) {s : σ}
    {ops : List op} (h : Follows step memory reading accepted stale ordered s ops)
    (hclock : (ops.filterMap reading).Pairwise (· ≤ ·)) {a : Acceptance ι κ τ γ}
    (ha : a ∈ log step accepted s ops) {t : τ}
    (hheld : (memory s).held a.identity = some t) : stale t a.reading := by
  induction ops generalizing s with
  | nil => cases ha
  | cons i rest ih =>
    rw [log_cons] at ha
    obtain ⟨hstep, hrest⟩ := h
    rcases List.mem_append.mp ha with ha | ha
    · have haccepted : accepted s i = some a := by simpa using ha
      rw [haccepted] at hstep
      generalize reading i = r at hstep
      cases hstep with
      | admitted h => exact h.absent t hheld
    · -- Either the entry is still held, or it was stale at this reading and the clock
      -- has not gone back since.
      have hlater := reading_of_mem hrest ha
      by_cases hfresh : ∀ c, reading i = some c → ¬ stale t c
      · exact ih hrest (pairwise_rest hclock) ha (hstep.keeps hheld hfresh)
      · push Not at hfresh
        obtain ⟨c, hc, hstale⟩ := hfresh
        exact hmono _ _ _ (reading_le hclock hc hlater) hstale

/-- An identity is accepted again only once the timestamp it was accepted with is stale. -/
theorem pairwise_stale (hmono : ∀ t c d, c ≤ d → stale t c → stale t d) {s : σ}
    {ops : List op} (h : Follows step memory reading accepted stale ordered s ops)
    (hclock : (ops.filterMap reading).Pairwise (· ≤ ·)) :
    (log step accepted s ops).Pairwise fun a b =>
      a.identity = b.identity → stale a.timestamp b.reading := by
  induction ops generalizing s with
  | nil => exact .nil
  | cons i rest ih =>
    obtain ⟨hstep, hrest⟩ := h
    have hlater := ih hrest (pairwise_rest hclock)
    rw [log_cons]
    cases haccepted : accepted s i with
    | none => exact hlater
    | some a =>
      refine List.pairwise_cons.mpr ⟨?_, hlater⟩
      intro b hb hid
      rw [haccepted] at hstep
      have hrecorded : (memory (step s i)).held b.identity = some a.timestamp := by
        generalize reading i = r at hstep
        cases hstep with
        | admitted h =>
          rw [← hid]
          exact h.recorded
      exact held_stale hmono hrest (pairwise_rest hclock) hb hrecorded

omit [LE γ]

/-- With ordering on, no floor falls. -/
theorem Step.floor_le (hordered : ordered) {now : Option γ} {m m' : Memory ι κ τ}
    {r : Option (Acceptance ι κ τ γ)} (h : Step stale ordered now m r m') {k : κ} {f : Int}
    (hfloor : m.floors k = some f) : ∃ f', m'.floors k = some f' ∧ f ≤ f' := by
  have hadmitted : ∀ {a : Acceptance ι κ τ γ}, Admitted stale ordered m m' a →
      ∃ f', m'.floors k = some f' ∧ f ≤ f' := by
    intro a h
    by_cases hsame : k = a.channel
    · subst hsame
      exact ⟨a.sequence, h.floor hordered, Int.le_of_lt (h.above hordered f hfloor)⟩
    · refine ⟨f, ?_, Int.le_refl f⟩
      rw [h.otherFloors k hsame]
      exact hfloor
  cases h with
  | idle => exact ⟨f, hfloor, Int.le_refl f⟩
  | forgot _ _ floors =>
    refine ⟨f, ?_, Int.le_refl f⟩
    rw [floors]
    exact hfloor
  | admitted h => exact hadmitted h
  | unanswered h => exact hadmitted h

/-- With ordering on, a channel accepts only sequences above its floor. -/
theorem above_floor (hordered : ordered) {s : σ} {ops : List op}
    (h : Follows step memory reading accepted stale ordered s ops) {a : Acceptance ι κ τ γ}
    (ha : a ∈ log step accepted s ops) {f : Int}
    (hfloor : (memory s).floors a.channel = some f) : f < a.sequence := by
  induction ops generalizing s f with
  | nil => cases ha
  | cons i rest ih =>
    rw [log_cons] at ha
    obtain ⟨hstep, hrest⟩ := h
    rcases List.mem_append.mp ha with ha | ha
    · have haccepted : accepted s i = some a := by simpa using ha
      rw [haccepted] at hstep
      generalize reading i = r at hstep
      cases hstep with
      | admitted h => exact h.above hordered f hfloor
    · obtain ⟨f', hfloor', hle⟩ := hstep.floor_le hordered hfloor
      exact Int.lt_of_le_of_lt hle (ih hrest ha hfloor')

/-- With ordering on, the sequences a channel accepts strictly increase. -/
theorem pairwise_increasing (hordered : ordered) {s : σ} {ops : List op}
    (h : Follows step memory reading accepted stale ordered s ops) :
    (log step accepted s ops).Pairwise fun a b =>
      a.channel = b.channel → a.sequence < b.sequence := by
  induction ops generalizing s with
  | nil => exact .nil
  | cons i rest ih =>
    obtain ⟨hstep, hrest⟩ := h
    have hlater := ih hrest
    rw [log_cons]
    cases haccepted : accepted s i with
    | none => exact hlater
    | some a =>
      refine List.pairwise_cons.mpr ⟨?_, hlater⟩
      intro b hb hsame
      rw [haccepted] at hstep
      have hfloor : (memory (step s i)).floors b.channel = some a.sequence := by
        generalize reading i = r at hstep
        cases hstep with
        | admitted h =>
          rw [← hsame]
          exact h.floor hordered
      exact above_floor hordered hrest hb hfloor

end ReplayWindow
