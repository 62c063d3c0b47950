import SynapseChannel.Core.VerdictAdmission

/-!
# Core — ProgressRetention

The bounded progress stream over any sequence of posted and restored
notes: what is retained is the newest of it, in order, within the bound of
the stream and those of every author and every task.
-/

namespace SynapseChannel

open Py

namespace Blackboard

/-! ## One trim -/

section Trim

variable {matching : ProgressNote → Bool} {excess : Nat} {notes : List ProgressNote}
  {note : ProgressNote}

@[simp] theorem dropFirst_zero : dropFirst matching 0 notes = notes := by
  cases notes <;> rfl

@[simp] theorem dropFirst_nil : dropFirst matching excess [] = [] := by
  cases excess <;> rfl

theorem dropFirst_sublist : (dropFirst matching excess notes).Sublist notes := by
  induction notes generalizing excess with
  | nil => simp
  | cons first rest ih =>
    cases excess with
    | zero => simp
    | succ excess =>
      unfold dropFirst
      split
      · exact ih.cons first
      · exact ih.cons_cons first

/-- A trim takes as many of the matching notes as it is asked to. -/
theorem countP_dropFirst :
    (dropFirst matching excess notes).countP matching = notes.countP matching - excess := by
  induction notes generalizing excess with
  | nil => simp
  | cons first rest ih =>
    cases excess with
    | zero => simp
    | succ excess =>
      unfold dropFirst
      split
      · rename_i hmatch
        rw [ih, List.countP_cons_of_pos hmatch]
        omega
      · rename_i hmatch
        rw [List.countP_cons_of_neg hmatch, List.countP_cons_of_neg hmatch, ih]

/-- The last note stays while as many older ones match as have to go. -/
theorem dropFirst_concat (h : excess ≤ notes.countP matching) :
    dropFirst matching excess (notes ++ [note]) = dropFirst matching excess notes ++ [note] := by
  induction notes generalizing excess with
  | nil =>
    have hzero : excess = 0 := by simpa using h
    simp [hzero]
  | cons first rest ih =>
    cases excess with
    | zero => simp
    | succ excess =>
      rw [List.cons_append]
      unfold dropFirst
      split
      · rename_i hmatch
        rw [List.countP_cons_of_pos hmatch] at h
        exact ih (by omega)
      · rename_i hmatch
        rw [List.countP_cons_of_neg hmatch] at h
        rw [ih h, List.cons_append]

variable {maxCount : Int}

theorem countP_dropOldestMatching (h : 1 ≤ maxCount) :
    ((dropOldestMatching matching maxCount notes).countP matching : Int) ≤ maxCount := by
  unfold dropOldestMatching
  rw [countP_dropFirst]
  omega

/-- The newest note outlives a trim, which leaves room for at least one. -/
theorem dropOldestMatching_concat (h : 1 ≤ maxCount) :
    ∃ older, older.Sublist notes ∧
      dropOldestMatching matching maxCount (notes ++ [note]) = older ++ [note] := by
  refine ⟨_, dropFirst_sublist, dropFirst_concat ?_⟩
  rw [List.countP_append, List.countP_singleton]
  split <;> omega

end Trim

/-! ## The retained stream -/

/-- The stream is the end of what was posted, within every bound. -/
structure Retained (board : Blackboard) (posted : List ProgressNote) : Prop where
  ordered : board.progress.Sublist posted
  newest : board.progress.getLast? = posted.getLast?
  total : (board.progress.length : Int) ≤ board.maxProgress
  perAuthor : ∀ author, (board.progress.countP (fun n => n.author == author) : Int) ≤
    board.maxProgressPerAuthor
  perTask : ∀ task, (board.progress.countP (fun n => n.taskId == task) : Int) ≤
    board.maxProgressPerTask

/-- Every bound leaves room for a note. -/
structure Roomy (board : Blackboard) : Prop where
  total : 1 ≤ board.maxProgress
  perAuthor : 1 ≤ board.maxProgressPerAuthor
  perTask : 1 ≤ board.maxProgressPerTask

variable {board : Blackboard} {posted : List ProgressNote}

/-- A class that is not the note's own is no larger after a trim; the note's own class is cut to
its bound. -/
theorem countP_class {α : Type} [DecidableEq α] {note : ProgressNote} {key : ProgressNote → α}
    {bound : Int} {before after : List ProgressNote} (hsub : after.Sublist (before ++ [note]))
    (hown : (after.countP (fun n => key n == key note) : Int) ≤ bound)
    (hbefore : ∀ a, (before.countP (fun n => key n == a) : Int) ≤ bound) (a : α) :
    (after.countP (fun n => key n == a) : Int) ≤ bound := by
  by_cases ha : key note = a
  · subst ha
    exact hown
  · have hle : after.countP (fun n => key n == a) ≤ before.countP (fun n => key n == a) := by
      refine (hsub.countP_le (p := fun n => key n == a)).trans ?_
      rw [List.countP_append, List.countP_cons_of_neg (by simp [ha]), List.countP_nil]
      omega
    exact (Int.ofNat_le.mpr hle).trans (hbefore a)

theorem Retained.append (h : board.Retained posted) (hroomy : board.Roomy) (note : ProgressNote) :
    (board.append note).Retained (posted ++ [note]) := by
  obtain ⟨first, hfirst, hall⟩ := @dropOldestMatching_concat (fun _ => true) board.progress note _
    hroomy.total
  obtain ⟨second, hsecond, hauthor⟩ := @dropOldestMatching_concat
    (fun n => n.author == note.author) first note _ hroomy.perAuthor
  obtain ⟨third, hthird, htask⟩ := @dropOldestMatching_concat
    (fun n => n.taskId == note.taskId) second note _ hroomy.perTask
  have hprogress : (board.append note).progress = third ++ [note] := by
    unfold Blackboard.append
    dsimp only
    rw [hall, hauthor, htask]
  have hsub : (third ++ [note]).Sublist (board.progress ++ [note]) :=
    ((hthird.trans hsecond).trans hfirst).append_right [note]
  -- the later trims keep what the earlier ones have reached
  have htotal : ((first ++ [note]).length : Int) ≤ board.maxProgress := by
    have hcount := @countP_dropOldestMatching (fun _ => true) (board.progress ++ [note]) _ hroomy.total
    rwa [hall, List.countP_true] at hcount
  have hown : ((second ++ [note]).countP (fun n => n.author == note.author) : Int) ≤
      board.maxProgressPerAuthor := by
    have hcount := @countP_dropOldestMatching (fun n => n.author == note.author) (first ++ [note]) _
      hroomy.perAuthor
    rwa [hauthor] at hcount
  have hownTask : ((third ++ [note]).countP (fun n => n.taskId == note.taskId) : Int) ≤
      board.maxProgressPerTask := by
    have hcount := @countP_dropOldestMatching (fun n => n.taskId == note.taskId) (second ++ [note]) _
      hroomy.perTask
    rwa [htask] at hcount
  constructor
  · rw [hprogress]
    exact hsub.trans (h.ordered.append_right [note])
  · rw [hprogress, List.getLast?_concat, List.getLast?_concat]
  · rw [hprogress]
    have hle := ((hthird.trans hsecond).append_right [note]).length_le
    exact (Int.ofNat_le.mpr hle).trans htotal
  · intro author
    rw [hprogress]
    have hle := (hthird.append_right [note]).countP_le (p := fun n => n.author == note.author)
    exact countP_class hsub ((Int.ofNat_le.mpr hle).trans hown) h.perAuthor author
  · intro task
    rw [hprogress]
    exact countP_class hsub hownTask h.perTask task

/-! ## Runs -/

/-- A call that appends to the stream: a post of some kind, a plain note, or a restored one. -/
inductive ProgressCall where
  | post (taskId author text kind : String) (now : Float)
  | note (taskId author text : String) (now : Float)
  | restore (kept : ProgressNote)

/-- `Blackboard.note`. -/
def note (board : Blackboard) (taskId author text : String) (now : Float) :
    Blackboard × ProgressNote :=
  let note : ProgressNote := { taskId := strip taskId, author, kind := "note", text, postedAt := now }
  (board.append note, note)

def progressStep (board : Blackboard) : ProgressCall → Blackboard
  | .post taskId author text kind now => (board.postProgress taskId author text kind now).1
  | .note taskId author text now => (board.note taskId author text now).1
  | .restore kept => board.restoreProgress kept

/-- The note a call appends; a post of an unknown kind appends none. -/
def ProgressCall.appended : ProgressCall → Option ProgressNote
  | .post taskId author text kind now =>
    if kind ∉ progressKinds then none
    else some { taskId := strip taskId, author, kind, text, postedAt := now }
  | .note taskId author text now =>
    some { taskId := strip taskId, author, kind := "note", text, postedAt := now }
  | .restore kept => some kept

theorem progressStep_eq (board : Blackboard) (call : ProgressCall) :
    board.progressStep call = (call.appended.map board.append).getD board := by
  cases call with
  | post taskId author text kind now =>
    by_cases hkind : kind ∈ progressKinds <;>
      simp [progressStep, postProgress, ProgressCall.appended, hkind]
  | note => rfl
  | restore => rfl

theorem Roomy.append (h : board.Roomy) (note : ProgressNote) : (board.append note).Roomy :=
  ⟨h.total, h.perAuthor, h.perTask⟩

theorem roomy_init (maxProgress maxPerAuthor maxPerTask : Int) :
    (init maxProgress maxPerAuthor maxPerTask).Roomy :=
  ⟨le_max_right _ _, le_max_right _ _, le_max_right _ _⟩

theorem Retained.start (hroomy : board.Roomy) (hempty : board.progress = []) : board.Retained [] := by
  constructor <;> simp [hempty]
  · exact Int.le_trans (by decide) hroomy.total
  · exact Int.le_trans (by decide) hroomy.perAuthor
  · exact Int.le_trans (by decide) hroomy.perTask

theorem run_retained (hroomy : board.Roomy) (h : board.Retained posted) (calls : List ProgressCall) :
    (Trace.run progressStep board calls).Retained (posted ++ calls.filterMap ProgressCall.appended) ∧
      (Trace.run progressStep board calls).maxProgress = board.maxProgress ∧
      (Trace.run progressStep board calls).maxProgressPerAuthor = board.maxProgressPerAuthor ∧
      (Trace.run progressStep board calls).maxProgressPerTask = board.maxProgressPerTask := by
  induction calls generalizing board posted with
  | nil => exact ⟨by simpa [Trace.run] using h, rfl, rfl, rfl⟩
  | cons call rest ih =>
    cases hcall : call.appended with
    | none =>
      have hstep : board.progressStep call = board := by simp [progressStep_eq, hcall]
      rw [Trace.run, hstep, List.filterMap_cons_none hcall]
      exact ih hroomy h
    | some note =>
      have hstep : board.progressStep call = board.append note := by simp [progressStep_eq, hcall]
      rw [Trace.run, hstep, List.filterMap_cons_some hcall, List.append_cons]
      exact ih (hroomy.append note) (h.append hroomy note)

/-- Over any run of posted and restored notes, the stream is the newest of what was appended, in
order and within all three bounds. -/
theorem progress_retention (maxProgress maxPerAuthor maxPerTask : Int) (calls : List ProgressCall) :
    let board := Trace.run progressStep (init maxProgress maxPerAuthor maxPerTask) calls
    let posted := calls.filterMap ProgressCall.appended
    board.progress.Sublist posted ∧ board.progress.getLast? = posted.getLast? ∧
      (board.progress.length : Int) ≤ max maxProgress 1 ∧
      (∀ author, (board.progress.countP (fun n => n.author == author) : Int) ≤ max maxPerAuthor 1) ∧
      ∀ task, (board.progress.countP (fun n => n.taskId == task) : Int) ≤ max maxPerTask 1 := by
  have hroomy := roomy_init maxProgress maxPerAuthor maxPerTask
  obtain ⟨hretained, htotal, hauthor, htask⟩ := run_retained hroomy (Retained.start hroomy rfl) calls
  have hlimit := hretained.total
  have hauthors := hretained.perAuthor
  have htasks := hretained.perTask
  rw [htotal] at hlimit
  simp only [hauthor] at hauthors
  simp only [htask] at htasks
  exact ⟨hretained.ordered, hretained.newest, hlimit, hauthors, htasks⟩

end Blackboard

end SynapseChannel
