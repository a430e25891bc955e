import Ctrlproxy.Base.Str
import Ctrlproxy.Lib.Outcome

/-!
# Log — open files

`src/log_support.c`: a table of the files that were written to, and how many of them are open.  An entry is
made before its file is opened and stays when that fails; but every entry that is removed is counted as one
open file less.  So the count is right as long as no entry is removed whose file is not open
(`reachable_accounted`).

The system is what `g_mkdir_with_parents` and `fopen` answer, and the clock, which is looked at again for
every entry.  A table is the list of its entries in the order in which they are gone through; which order that
is makes no difference here.
-/

namespace Ctrlproxy.Log
open Outcome

/-- `MAX_OPEN_LOGFILES`. -/
def MAX_OPEN_LOGFILES : ℤ := 300

/-- `CLEANUP_THRESHOLD`. -/
def CLEANUP_THRESHOLD : ℤ := 60 * 60

/-- `struct log_file_info`: what was written to the file since it was opened, if it is open. -/
structure LogFileInfo where
  file : Option (List Str)
  lastUsed : ℤ
  deriving DecidableEq

/-- `struct log_support_context`. -/
structure LogSupportContext where
  files : List (Str × LogFileInfo)
  numOpened : ℤ
  deriving DecidableEq

/-- `log_support_init`. -/
def logSupportInit : LogSupportContext := ⟨[], 0⟩

/-! ### Removing -/

/-- `g_hash_table_foreach_remove` with `eval_remove` or `unconditional_remove`: the count and the entries
that are left. -/
def foreachRemove (remove : Str × LogFileInfo → Bool) :
    (numOpened : ℤ) → List (Str × LogFileInfo) → Except Fault LogSupportContext
  | n, [] => .ok ⟨[], n⟩
  | n, e :: files =>
      if remove e then
        if 0 ≤ n - 1 then foreachRemove remove (n - 1) files else .error .assertion
      else do
        let ctx ← foreachRemove remove n files
        pure { ctx with files := e :: ctx.files }

/-- The test of `eval_remove`, where `now` is the time at which an entry is looked at. -/
def expired (now : Str → ℤ) (e : Str × LogFileInfo) : Bool :=
  e.2.lastUsed < now e.1 - CLEANUP_THRESHOLD

/-- `log_support_cleanup`. -/
def logSupportCleanup (now : Str → ℤ) (ctx : LogSupportContext) : Except Fault LogSupportContext :=
  foreachRemove (expired now) ctx.numOpened ctx.files

/-- `log_support_reopen`. -/
def logSupportReopen (ctx : LogSupportContext) : Except Fault LogSupportContext :=
  foreachRemove (fun _ => true) ctx.numOpened ctx.files

/-! ### Writing -/

/-- What the system answers while a line is written. -/
structure LogAnswers where
  /-- the clock while the table is cleaned up -/
  cleanup : Str → ℤ
  /-- `g_mkdir_with_parents` makes the directory, or has it -/
  mkdir : Bool
  /-- `fopen` opens the file -/
  fopen : Bool
  /-- the clock after the line was written -/
  now : ℤ

/-- Put an entry into the table, in place of the one with its path. -/
def setFile (path : Str) (fi : LogFileInfo) : List (Str × LogFileInfo) → List (Str × LogFileInfo)
  | [] => [(path, fi)]
  | e :: files => if path = e.1 then (path, fi) :: files else e :: setFile path fi files

/-- A write begins with a cleanup. -/
def LogSupportContext.cleanupDue (ctx : LogSupportContext) : Bool := MAX_OPEN_LOGFILES < ctx.numOpened

/-- The entry of a path, or a new one. -/
def LogSupportContext.fileInfo (ctx : LogSupportContext) (path : Str) : LogFileInfo :=
  (ctx.files.lookup path).getD ⟨none, 0⟩

/-- A write, behind the cleanup. -/
def writeLine (ctx : LogSupportContext) (path text : Str) (answers : LogAnswers) : Bool × LogSupportContext :=
  let fi := ctx.fileInfo path
  match fi.file with
  | some written =>
      (true, { ctx with files := setFile path ⟨some (written ++ [text]), answers.now⟩ ctx.files })
  | none =>
      -- the entry is in the table before the file is opened
      if answers.mkdir = false then (false, { ctx with files := setFile path fi ctx.files })
      else if answers.fopen = false then (false, { ctx with files := setFile path fi ctx.files })
      else (true, { ctx with
        files := setFile path ⟨some [text], answers.now⟩ ctx.files
        numOpened := ctx.numOpened + 1 })

/-- `log_support_write`. -/
def logSupportWrite (ctx : LogSupportContext) (path text : Str) (answers : LogAnswers) :
    Except Fault (Bool × LogSupportContext) := do
  let ctx ← if ctx.cleanupDue then logSupportCleanup answers.cleanup ctx else pure ctx
  pure (writeLine ctx path text answers)

/-! ### Runs -/

/-- What is called. -/
inductive LogCall where
  | write (path text : Str) (answers : LogAnswers)
  | cleanup (now : Str → ℤ)
  | reopen

/-- The context after a call. -/
def logStep (ctx : LogSupportContext) : LogCall → Except Fault LogSupportContext
  | .write path text answers => (logSupportWrite ctx path text answers).map Prod.snd
  | .cleanup now => logSupportCleanup now ctx
  | .reopen => logSupportReopen ctx

/-- The number of entries whose file is open. -/
def openFiles (files : List (Str × LogFileInfo)) : ℕ := files.countP fun e => e.2.file.isSome

/-- `num_opened` is the number of open files. -/
def LogSupportContext.Counted (ctx : LogSupportContext) : Prop := ctx.numOpened = openFiles ctx.files

instance (ctx : LogSupportContext) : Decidable ctx.Counted := inferInstanceAs (Decidable (_ = _))

/-- The entries that a call removes. -/
def LogCall.removes (ctx : LogSupportContext) : LogCall → Str × LogFileInfo → Bool
  | .write _ _ answers, e => ctx.cleanupDue && expired answers.cleanup e
  | .cleanup now, e => expired now e
  | .reopen, _ => true

/-- No entry is removed whose file is not open. -/
def RemovesOpen (ctx : LogSupportContext) (call : LogCall) : Prop :=
  ∀ e ∈ ctx.files, call.removes ctx e = true → e.2.file.isSome = true

instance (ctx : LogSupportContext) (call : LogCall) : Decidable (RemovesOpen ctx call) :=
  inferInstanceAs (Decidable (∀ _ ∈ _, _))

/-! ### One call -/

section
variable {ctx ctx' : LogSupportContext} {files : List (Str × LogFileInfo)}
  {remove : Str × LogFileInfo → Bool} {n : ℤ}

/-- A removal returns when there is as much to count down as is removed. -/
theorem foreachRemove_eq (h : (files.countP remove : ℤ) ≤ n) : foreachRemove remove n files =
    .ok ⟨files.filter (!remove ·), n - files.countP remove⟩ := by
  induction files generalizing n with
  | nil => simp [foreachRemove]
  | cons e files ih =>
      rw [foreachRemove]
      rw [List.countP_cons] at h ⊢
      cases he : remove e with
      | true =>
          rw [he] at h
          push_cast at h
          rw [if_pos rfl, if_pos (by simp at h; omega), ih (by simp at h; omega)]
          simp [he]
          omega
      | false =>
          rw [he] at h
          rw [if_neg Bool.false_ne_true, ih (by simpa using h), ok_bind]
          simp [he]

/-- If it returns, it has counted every entry that it removed. -/
theorem foreachRemove_inv (h : foreachRemove remove n files = .ok ctx') :
    ctx' = ⟨files.filter (!remove ·), n - files.countP remove⟩ := by
  induction files generalizing n ctx' with
  | nil =>
      cases h
      simp
  | cons e files ih =>
      rw [foreachRemove] at h
      rw [List.countP_cons]
      cases he : remove e with
      | true =>
          rw [he, if_pos rfl] at h
          split at h
          · rw [ih h]
            simp [he]
            omega
          · cases h
      | false =>
          rw [he, if_neg Bool.false_ne_true] at h
          obtain ⟨ctx₁, h₁, h⟩ := bind_eq_ok h
          cases h
          rw [ih h₁]
          simp [he]

/-- The open files are those that are removed and those that are left. -/
theorem openFiles_filter (remove : Str × LogFileInfo → Bool) (files : List (Str × LogFileInfo)) :
    openFiles files = openFiles (files.filter (!remove ·)) +
      files.countP fun e => remove e && e.2.file.isSome := by
  induction files with
  | nil => rfl
  | cons e files ih =>
      simp only [openFiles] at ih ⊢
      cases he : remove e <;> cases ho : e.2.file.isSome <;> simp [he, ho, ih] <;> omega

/-- As many entries pass both tests as pass the first, when all that pass it pass the second. -/
theorem countP_and_eq_iff {α : Type} (p q : α → Bool) (l : List α) :
    (l.countP fun a => p a && q a) = l.countP p ↔ ∀ a ∈ l, p a = true → q a = true := by
  induction l with
  | nil => simp
  | cons a l ih =>
      have hle : (l.countP fun a => p a && q a) ≤ l.countP p :=
        List.countP_mono_left fun a _ h => (Bool.and_eq_true_iff.mp h).1
      rw [List.countP_cons, List.countP_cons, List.forall_mem_cons, ← ih]
      cases p a <;> cases q a <;> simp
      omega

/-- A removal keeps the count exactly when it removes open files only. -/
theorem foreachRemove_counted_iff (h : ctx.Counted) :
    (∃ ctx', foreachRemove remove ctx.numOpened ctx.files = .ok ctx' ∧ ctx'.Counted) ↔
      ∀ e ∈ ctx.files, remove e = true → e.2.file.isSome = true := by
  have hsplit := openFiles_filter remove ctx.files
  rw [LogSupportContext.Counted] at h
  rw [← countP_and_eq_iff]
  constructor
  · rintro ⟨ctx', hrun, hcounted⟩
    rw [foreachRemove_inv hrun, LogSupportContext.Counted] at hcounted
    dsimp only at hcounted
    omega
  · intro heq
    refine ⟨_, foreachRemove_eq (by omega), ?_⟩
    rw [LogSupportContext.Counted]
    dsimp only
    omega

/-- An entry that is put into the table counts for the one in whose place it is. -/
theorem openFiles_setFile (path : Str) (fi : LogFileInfo) (files : List (Str × LogFileInfo)) :
    openFiles (setFile path fi files) + ((files.lookup path).getD ⟨none, 0⟩).file.isSome.toNat =
      openFiles files + fi.file.isSome.toNat := by
  induction files with
  | nil => cases h : fi.file.isSome <;> simp [setFile, openFiles, h]
  | cons e files ih =>
      rw [setFile, List.lookup_cons]
      by_cases hpath : path = e.1
      · rw [if_pos hpath, beq_iff_eq.mpr hpath]
        cases h : fi.file.isSome <;> cases he : e.2.file.isSome <;> simp [openFiles, h, he]
      · rw [if_neg hpath, beq_eq_false_iff_ne.mpr hpath]
        simp only [openFiles, List.countP_cons] at ih ⊢
        omega

/-- A write counts the file that it opens. -/
theorem writeLine_counted (ctx : LogSupportContext) (path text : Str) (answers : LogAnswers) :
    (writeLine ctx path text answers).2.Counted ↔ ctx.Counted := by
  have hset := fun fi => openFiles_setFile path fi ctx.files
  rw [← LogSupportContext.fileInfo] at hset
  rw [writeLine, LogSupportContext.Counted, LogSupportContext.Counted]
  cases hfile : (ctx.fileInfo path).file with
  | some written =>
      have hopen := hset ⟨some (written ++ [text]), answers.now⟩
      rw [hfile] at hopen
      simp at hopen ⊢
      omega
  | none =>
      have hclosed := hset (ctx.fileInfo path)
      have hopen := hset ⟨some [text], answers.now⟩
      rw [hfile] at hclosed hopen
      dsimp only
      split
      · simp at hclosed ⊢
        omega
      · split
        · simp at hclosed ⊢
          omega
        · simp at hopen ⊢
          omega

/-- A call keeps the count exactly when it removes open files only. -/
theorem logStep_counted_iff (h : ctx.Counted) (call : LogCall) :
    (∃ ctx', logStep ctx call = .ok ctx' ∧ ctx'.Counted) ↔ RemovesOpen ctx call := by
  cases call with
  | cleanup now => exact foreachRemove_counted_iff h
  | reopen => exact foreachRemove_counted_iff h
  | write path text answers =>
      simp only [logStep, logSupportWrite, RemovesOpen, LogCall.removes]
      cases hdue : ctx.cleanupDue with
      | false =>
          simp only [Bool.false_eq_true, if_false, Bool.false_and, false_implies, implies_true, iff_true]
          exact ⟨_, rfl, (writeLine_counted ctx path text answers).mpr h⟩
      | true =>
          simp only [if_true, Bool.true_and]
          rw [← foreachRemove_counted_iff h]
          constructor
          · rintro ⟨ctx', hrun, hcounted⟩
            obtain ⟨r, hr, rfl⟩ := map_eq_ok hrun
            obtain ⟨ctx₁, h₁, hr⟩ := bind_eq_ok hr
            cases hr
            exact ⟨ctx₁, h₁, (writeLine_counted ctx₁ path text answers).mp hcounted⟩
          · rintro ⟨ctx₁, h₁, hcounted⟩
            refine ⟨(writeLine ctx₁ path text answers).2, ?_, (writeLine_counted _ _ _ _).mpr hcounted⟩
            rw [logSupportCleanup, h₁]
            rfl

end

/-! ### All calls -/

/-- The count is that of the open files, a write begins with a cleanup when there are more of them than there
may be, and every call for which `ok` holds returns and keeps the count. -/
structure Accounted (ok : LogSupportContext → LogCall → Prop) (ctx : LogSupportContext) : Prop where
  counted : ctx.Counted
  nonneg : 0 ≤ ctx.numOpened
  cleanup : ctx.cleanupDue = true ↔ MAX_OPEN_LOGFILES < openFiles ctx.files
  next : ∀ call, ok ctx call → ∃ ctx', logStep ctx call = .ok ctx' ∧ ctx'.Counted

/-- **Open files are counted**, in every context that is reached by calls that remove no entry whose file is
not open; and such calls are the only ones that keep the count and fail no assertion. -/
theorem reachable_accounted {ctx : LogSupportContext} (h : Reach logStep RemovesOpen logSupportInit ctx) :
    Accounted RemovesOpen ctx ∧
      ∀ call, (∃ ctx', logStep ctx call = .ok ctx' ∧ ctx'.Counted) → RemovesOpen ctx call := by
  have hcounted : ctx.Counted := by
    refine h.invariant (I := LogSupportContext.Counted) rfl fun ctx call hctx hok => ?_
    obtain ⟨ctx', hrun, hctx'⟩ := (logStep_counted_iff hctx call).mpr hok
    rw [hrun]
    exact hctx'
  have heq : ctx.numOpened = openFiles ctx.files := hcounted
  refine ⟨⟨hcounted, heq ▸ Int.natCast_nonneg _, ?_, fun call => (logStep_counted_iff hcounted call).mpr⟩,
    fun call => (logStep_counted_iff hcounted call).mp⟩
  rw [LogSupportContext.cleanupDue, decide_eq_true_iff, heq]

/-- Every file can be opened, and the clock stands still. -/
def openable : LogAnswers := ⟨fun _ => 1000, true, true, 1000⟩

/-- Two files are written to, one of them twice. -/
theorem reachable_accounted_two : ∃ ctx, Reach logStep RemovesOpen logSupportInit ctx ∧
    ctx.numOpened = 2 ∧ Accounted RemovesOpen ctx := by
  have run : (admittedRun logStep RemovesOpen logSupportInit
      [.write (str "a") (str "x") openable, .write (str "b") (str "y") openable,
        .write (str "a") (str "z") openable]).map (·.numOpened) = some 2 := by decide +kernel
  obtain ⟨ctx, hrun, htwo⟩ := Option.map_eq_some_iff.mp run
  have hreach : Reach logStep RemovesOpen logSupportInit ctx := Reach.of_admittedRun .refl hrun
  exact ⟨ctx, hreach, htwo, (reachable_accounted hreach).1⟩

/-- A file that could not be opened is counted as one less when the table is emptied. -/
theorem failed_open_counted : ¬∀ ctx, Reach logStep (fun _ _ => True) logSupportInit ctx →
    Accounted (fun _ _ => True) ctx := by
  intro h
  have run : (logStep logSupportInit (.write (str "a") (str "x") ⟨fun _ => 1000, true, false, 1000⟩)) =
      .ok ⟨[(str "a", ⟨none, 0⟩)], 0⟩ := by decide +kernel
  have hreach : Reach logStep (fun _ _ => True) logSupportInit _ := .step .refl trivial run
  obtain ⟨ctx', hrun, -⟩ := (h _ hreach).next .reopen trivial
  have fault : logStep ⟨[(str "a", ⟨none, 0⟩)], 0⟩ .reopen = .error .assertion := by decide +kernel
  rw [fault] at hrun
  cases hrun

end Ctrlproxy.Log
