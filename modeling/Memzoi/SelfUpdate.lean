/-
# The replacement of the installed binaries

Source: `update.rs` (`replace_files_transaction`, `rollback_replacements`).

A binary is moved to its backup and the staged file to its place; a failure
moves the backups back. A stale backup is removed first, and when that fails
the function returns `RolledBack` without moving anything back. So it keeps its
word exactly when no removal fails after a binary was replaced
(`replaceFilesTransaction_iff`). The paths of a run differ, so it makes each
file operation at most once, and which of them fail is a set of operations.
-/

import Memzoi.Lib.Fallible
import Mathlib

namespace Memzoi
namespace SelfUpdate

/-! ### Files -/

inductive FileOperation where
  | remove (path : String)
  | rename (source dest : String)
  deriving DecidableEq, Repr

/-- The operations that fail, and the text of a failure. -/
structure Faults where
  fails : FileOperation → Bool
  message : FileOperation → String

abbrev Files (File : Type) : Type := String → Option File

section Operations

variable {File : Type} (faults : Faults)

def Files.exists (files : Files File) (path : String) : Bool := (files path).isSome

/-- `fs::remove_file`. -/
def removeFile (files : Files File) (path : String) : Except String (Files File) :=
  if files.exists path = true ∧ faults.fails (.remove path) = false then
    .ok (Function.update files path none)
  else .error (faults.message (.remove path))

/-- `fs::rename`: a file at the destination is replaced. -/
def rename (files : Files File) (source dest : String) : Except String (Files File) :=
  if files.exists source = true ∧ faults.fails (.rename source dest) = false then
    .ok (Function.update (Function.update files dest (files source)) source none)
  else .error (faults.message (.rename source dest))

end Operations

section Renames

variable {File : Type} {faults : Faults} {files : Files File} {source dest : String}

/-- A file that is moved is at its destination, and nothing else changes. -/
theorem rename_spec (hne : source ≠ dest) (hexists : files.exists source = true)
    (hfails : faults.fails (.rename source dest) = false) :
    ∃ moved, rename faults files source dest = .ok moved ∧ moved dest = files source ∧
      ∀ p, p ≠ source → p ≠ dest → moved p = files p := by
  refine ⟨_, if_pos ⟨hexists, hfails⟩, ?_, fun p hs hd => ?_⟩
  · rw [Function.update_of_ne hne.symm, Function.update_self]
  · rw [Function.update_of_ne hs, Function.update_of_ne hd]

theorem rename_error
    (h : ¬ (files.exists source = true ∧ faults.fails (.rename source dest) = false)) :
    rename faults files source dest = .error (faults.message (.rename source dest)) := if_neg h

/-- A file that is in the way is removed, and nothing else changes. -/
theorem clear_spec {path : String}
    (h : ¬ (files.exists path = true ∧ faults.fails (.remove path) = true)) :
    ∃ cleared, (if files.exists path then removeFile faults files path else .ok files) =
      .ok cleared ∧ ∀ p, p ≠ path → cleared p = files p := by
  by_cases hexists : files.exists path = true
  · have hfails : faults.fails (.remove path) = false :=
      eq_false_of_ne_true fun hfails => h ⟨hexists, hfails⟩
    refine ⟨Function.update files path none, ?_, fun p hp => Function.update_of_ne hp _ _⟩
    rw [if_pos hexists, removeFile, if_pos ⟨hexists, hfails⟩]
  · exact ⟨files, if_neg hexists, fun p _ => rfl⟩

end Renames

/-! ### The transaction -/

structure FileReplacement where
  source : String
  dest : String
  backup : String
  deriving DecidableEq, Repr

inductive ReplaceError where
  | rolledBack (message : String)
  | rollbackFailed (message : String)
  deriving DecidableEq, Repr

section Transaction

variable {File : Type} (faults : Faults)

/-- One turn of the loop of the rollback, with the failures of the turns before it. -/
def restoreBackup (state : Files File × List String) (entry : String × String) :
    Files File × List String :=
  let (files, failures) := state
  let (backup, dest) := entry
  match if files.exists dest then removeFile faults files dest else .ok files with
  | .error error => (files, failures ++ ["failed to remove partial " ++ dest ++ ": " ++ error])
  | .ok files =>
    match rename faults files backup dest with
    | .error error =>
      (files, failures ++ ["failed to restore " ++ dest ++ " from " ++ backup ++ ": " ++ error])
    | .ok files => (files, failures)

def rollbackReplacements (files : Files File) (moved : List (String × String)) :
    Files File × Except ReplaceError Unit :=
  let (files, failures) := moved.reverse.foldl (restoreBackup faults) (files, [])
  if failures = [] then (files, .ok ())
  else (files, .error (.rollbackFailed ("; ".intercalate failures)))

/-- `rollback_replacements(&moved)?`, and then the failure. -/
def rollbackThen (files : Files File) (moved : List (String × String)) (message : String) :
    Files File × Except ReplaceError (List (String × String)) :=
  match rollbackReplacements faults files moved with
  | (files, .error error) => (files, .error error)
  | (files, .ok ()) => (files, .error (.rolledBack message))

/-- The loop over the replacements, with the backups made so far. -/
def replaceFrom (files : Files File) (moved : List (String × String)) :
    List FileReplacement → Files File × Except ReplaceError (List (String × String))
  | [] => (files, .ok moved)
  | r :: rest =>
    match if files.exists r.backup then removeFile faults files r.backup else .ok files with
    | .error error =>
      (files, .error (.rolledBack ("failed to remove stale backup " ++ r.backup ++ ": " ++ error)))
    | .ok files =>
      match rename faults files r.dest r.backup with
      | .error error =>
        rollbackThen faults files moved ("failed to back up " ++ r.dest ++ ": " ++ error ++ "; rolled back")
      | .ok files =>
        let moved := moved ++ [(r.backup, r.dest)]
        match rename faults files r.source r.dest with
        | .error error =>
          rollbackThen faults files moved ("failed to install " ++ r.dest ++ ": " ++ error ++ "; rolled back")
        | .ok files => replaceFrom files moved rest

def replaceFilesTransaction (files : Files File) (replacements : List FileReplacement) :
    Files File × Except ReplaceError (List (String × String)) :=
  replaceFrom faults files [] replacements

end Transaction

/-! ### Distinct paths -/

def FileReplacement.paths (r : FileReplacement) : List String := [r.source, r.dest, r.backup]

/-- The staged files, destinations and backups are all different. -/
def Distinct (replacements : List FileReplacement) : Prop :=
  (replacements.flatMap FileReplacement.paths).Nodup

def backups (replacements : List FileReplacement) : List (String × String) :=
  replacements.map fun r => (r.backup, r.dest)

section Paths

variable {r q : FileReplacement} {rs : List FileReplacement}

theorem distinct_cons : Distinct (r :: rs) ↔
    r.paths.Nodup ∧ Distinct rs ∧ ∀ q ∈ rs, ∀ p ∈ r.paths, p ∉ q.paths := by
  unfold Distinct
  rw [List.flatMap_cons, List.nodup_append']
  refine and_congr_right fun _ => and_congr_right fun _ => ?_
  constructor
  · intro h q hq p hp hmem
    exact h hp (List.mem_flatMap.2 ⟨q, hq, hmem⟩)
  · intro h p hp hmem
    obtain ⟨q, hq, hmem⟩ := List.mem_flatMap.1 hmem
    exact h q hq p hp hmem

theorem Distinct.perm {ss : List FileReplacement} (h : Distinct rs) (hperm : rs.Perm ss) :
    Distinct ss :=
  ((hperm.flatMap_right _).nodup_iff).1 h

theorem Distinct.append_left {ss : List FileReplacement} (h : Distinct (rs ++ ss)) : Distinct rs := by
  unfold Distinct at h ⊢
  rw [List.flatMap_append] at h
  exact h.of_append_left

/-- In a list of distinct paths an entry is apart from those before and after it. -/
theorem Distinct.middle {before after : List FileReplacement}
    (h : Distinct (before ++ r :: after)) :
    r.paths.Nodup ∧ ∀ q, q ∈ before ∨ q ∈ after → ∀ p ∈ r.paths, p ∉ q.paths := by
  obtain ⟨hr, -, hother⟩ := distinct_cons.1 (h.perm List.perm_middle)
  exact ⟨hr, fun q hq => hother q (List.mem_append.2 hq)⟩

theorem source_mem (r : FileReplacement) : r.source ∈ r.paths := List.mem_cons_self
theorem dest_mem (r : FileReplacement) : r.dest ∈ r.paths := List.mem_cons_of_mem _ List.mem_cons_self
theorem backup_mem (r : FileReplacement) : r.backup ∈ r.paths :=
  List.mem_cons_of_mem _ (List.mem_cons_of_mem _ List.mem_cons_self)

theorem paths_ne (h : r.paths.Nodup) :
    r.source ≠ r.dest ∧ r.source ≠ r.backup ∧ r.dest ≠ r.backup := by
  simpa [FileReplacement.paths, and_assoc] using h

end Paths

/-! ### The rollback -/

section Rollback

variable {File : Type} {faults : Faults} {files : Files File}

/-- The operations of the rollback succeed. -/
def RollbackSucceeds (faults : Faults) (rs : List FileReplacement) : Prop :=
  ∀ r ∈ rs, faults.fails (.remove r.dest) = false ∧ faults.fails (.rename r.backup r.dest) = false

/-- A backup that exists is moved back, and nothing else changes. -/
theorem restoreBackup_spec {r : FileReplacement} (hne : r.dest ≠ r.backup)
    (hremove : faults.fails (.remove r.dest) = false)
    (hrename : faults.fails (.rename r.backup r.dest) = false)
    (hbackup : files.exists r.backup = true) (failures : List String) :
    ∃ restored, restoreBackup faults (files, failures) (r.backup, r.dest) = (restored, failures) ∧
      restored r.dest = files r.backup ∧
      ∀ p, p ≠ r.dest → p ≠ r.backup → restored p = files p := by
  obtain ⟨cleared, hcleared, hsame⟩ := @clear_spec File faults files r.dest
    fun h => Bool.false_ne_true (hremove.symm.trans h.2)
  have hkept : cleared r.backup = files r.backup := hsame _ hne.symm
  have hexists : cleared.exists r.backup = true := by
    rw [Files.exists, hkept]
    exact hbackup
  obtain ⟨restored, hmove, hdest, hothers⟩ := rename_spec hne.symm hexists hrename
  refine ⟨restored, ?_, hdest.trans hkept, fun p hd hb => (hothers p hb hd).trans (hsame p hd)⟩
  simp only [restoreBackup, hcleared, hmove]

/-- Backups that exist are all moved back, and nothing else changes. -/
theorem restoreAll_spec {rs : List FileReplacement} (hdistinct : Distinct rs)
    (hsucceeds : RollbackSucceeds faults rs) (hbackups : ∀ r ∈ rs, files.exists r.backup = true) :
    ∃ restored, (backups rs).foldl (restoreBackup faults) (files, []) = (restored, []) ∧
      (∀ r ∈ rs, restored r.dest = files r.backup) ∧
      ∀ p, (∀ r ∈ rs, p ≠ r.dest ∧ p ≠ r.backup) → restored p = files p := by
  induction rs generalizing files with
  | nil => exact ⟨files, rfl, fun _ hr => absurd hr List.not_mem_nil, fun _ _ => rfl⟩
  | cons r rs ih =>
      obtain ⟨hr, hrest, hapart⟩ := distinct_cons.1 hdistinct
      obtain ⟨hremove, hrename⟩ := hsucceeds r List.mem_cons_self
      obtain ⟨-, -, hne⟩ := paths_ne hr
      obtain ⟨first, hfirst, hdest, hothers⟩ := restoreBackup_spec hne hremove hrename
        (hbackups r List.mem_cons_self) []
      have hkept : ∀ q ∈ rs, first q.backup = files q.backup := by
        intro q hq
        refine hothers _ ?_ ?_
        · exact fun heq => hapart q hq r.dest (dest_mem r) (heq ▸ backup_mem q)
        · exact fun heq => hapart q hq r.backup (backup_mem r) (heq ▸ backup_mem q)
      have hstill : ∀ q ∈ rs, first.exists q.backup = true := by
        intro q hq
        rw [Files.exists, hkept q hq]
        exact hbackups q (List.mem_cons_of_mem _ hq)
      obtain ⟨restored, hfold, hrestored, hsame⟩ := ih hrest
        (fun q hq => hsucceeds q (List.mem_cons_of_mem _ hq)) hstill
      refine ⟨restored, ?_, fun q hq => ?_, fun p hp => ?_⟩
      · rw [backups, List.map_cons, List.foldl_cons, hfirst]
        exact hfold
      · rcases List.mem_cons.1 hq with rfl | hq
        · -- the rest of the rollback does not touch this destination
          rw [hsame, hdest]
          intro x hx
          exact ⟨fun heq => hapart x hx _ (dest_mem q) (heq ▸ dest_mem x),
            fun heq => hapart x hx _ (dest_mem q) (heq ▸ backup_mem x)⟩
        · rw [hrestored q hq, hkept q hq]
      · obtain ⟨hd, hb⟩ := hp r List.mem_cons_self
        rw [hsame p fun q hq => hp q (List.mem_cons_of_mem _ hq), hothers p hd hb]

theorem rollbackReplacements_spec {rs : List FileReplacement} (hdistinct : Distinct rs)
    (hsucceeds : RollbackSucceeds faults rs) (hbackups : ∀ r ∈ rs, files.exists r.backup = true) :
    ∃ restored, rollbackReplacements faults files (backups rs) = (restored, .ok ()) ∧
      (∀ r ∈ rs, restored r.dest = files r.backup) ∧
      ∀ p, (∀ r ∈ rs, p ≠ r.dest ∧ p ≠ r.backup) → restored p = files p := by
  have hreverse : (backups rs).reverse = backups rs.reverse := List.map_reverse.symm
  obtain ⟨restored, hfold, hrestored, hsame⟩ := restoreAll_spec (hdistinct.perm rs.reverse_perm.symm)
    (fun r hr => hsucceeds r (List.mem_reverse.1 hr))
    fun r hr => hbackups r (List.mem_reverse.1 hr)
  refine ⟨restored, ?_, fun r hr => hrestored r (List.mem_reverse.2 hr), fun p hp => hsame p
    fun r hr => hp r (List.mem_reverse.1 hr)⟩
  rw [rollbackReplacements, hreverse, hfold]
  rfl

end Rollback

/-! ### The loop -/

section Loop

variable {File : Type} {faults : Faults} {start files : Files File}

/-- Every operation on an entry succeeds, from the files at the start. -/
structure Installs (faults : Faults) (start : Files File) (r : FileReplacement) : Prop where
  cleared : start.exists r.backup = true → faults.fails (.remove r.backup) = false
  backedUp : start.exists r.dest = true ∧ faults.fails (.rename r.dest r.backup) = false
  installed : start.exists r.source = true ∧ faults.fails (.rename r.source r.dest) = false

/-- An entry with a stale backup that cannot be removed. -/
def StaleStuck (faults : Faults) (start : Files File) (r : FileReplacement) : Prop :=
  start.exists r.backup = true ∧ faults.fails (.remove r.backup) = true

theorem Installs.not_stuck {r : FileReplacement} (h : Installs faults start r) :
    ¬ StaleStuck faults start r := by
  rintro ⟨hexists, hfails⟩
  rw [h.cleared hexists] at hfails
  cases hfails

/-- The files after some entries were replaced. -/
structure Installed (start files : Files File) (done : List FileReplacement) : Prop where
  dest : ∀ r ∈ done, files r.dest = start r.source
  backup : ∀ r ∈ done, files r.backup = start r.dest
  had : ∀ r ∈ done, start.exists r.dest = true
  others : ∀ p, (∀ r ∈ done, p ∉ r.paths) → files p = start p

theorem Installed.nil (start : Files File) : Installed start start [] :=
  ⟨fun _ hr => absurd hr List.not_mem_nil, fun _ hr => absurd hr List.not_mem_nil,
    fun _ hr => absurd hr List.not_mem_nil, fun _ _ => rfl⟩

/-- One turn of the loop: the entry is replaced, its stale backup is stuck, or what was moved is
rolled back, with this entry if it was moved itself. -/
theorem replaceFrom_turn {r : FileReplacement} (hr : r.paths.Nodup) (moved : List (String × String))
    (rest : List FileReplacement) :
    (Installs faults files r ∧ ∃ next, next r.dest = files r.source ∧ next r.backup = files r.dest ∧
        (∀ p, p ∉ r.paths → next p = files p) ∧
        replaceFrom faults files moved (r :: rest) =
          replaceFrom faults next (moved ++ [(r.backup, r.dest)]) rest) ∨
      (StaleStuck faults files r ∧ ∃ message,
        replaceFrom faults files moved (r :: rest) = (files, .error (.rolledBack message))) ∨
      (¬ Installs faults files r ∧ ¬ StaleStuck faults files r ∧ ∃ half message,
        (∀ p, p ∉ r.paths → half p = files p) ∧
        ((half r.dest = files r.dest ∧
            replaceFrom faults files moved (r :: rest) = rollbackThen faults half moved message) ∨
          (half r.backup = files r.dest ∧ files.exists r.dest = true ∧
            replaceFrom faults files moved (r :: rest) =
              rollbackThen faults half (moved ++ [(r.backup, r.dest)]) message))) := by
  obtain ⟨hsd, hsb, hdb⟩ := paths_ne hr
  have hoff : ∀ p, p ∉ r.paths → p ≠ r.source ∧ p ≠ r.dest ∧ p ≠ r.backup := by
    intro p hp
    refine ⟨?_, ?_, ?_⟩ <;> rintro rfl
    · exact hp (source_mem r)
    · exact hp (dest_mem r)
    · exact hp (backup_mem r)
  by_cases hstuck : StaleStuck faults files r
  · refine Or.inr (Or.inl ⟨hstuck,
      "failed to remove stale backup " ++ r.backup ++ ": " ++ faults.message (.remove r.backup), ?_⟩)
    rw [replaceFrom, if_pos hstuck.1, removeFile,
      if_neg fun hok => Bool.false_ne_true (hok.2.symm.trans hstuck.2)]
  obtain ⟨cleared, hcleared, hkept⟩ := clear_spec hstuck
  have hdest : cleared r.dest = files r.dest := hkept _ hdb
  have hdestExists : cleared.exists r.dest = files.exists r.dest := congrArg Option.isSome hdest
  by_cases hback : files.exists r.dest = true ∧ faults.fails (.rename r.dest r.backup) = false
  · obtain ⟨half, hmove, hbackup, hhalf⟩ :=
      rename_spec hdb (hdestExists.trans hback.1) hback.2
    have hsource : half r.source = files r.source := (hhalf _ hsd hsb).trans (hkept _ hsb)
    have hsourceExists : half.exists r.source = files.exists r.source :=
      congrArg Option.isSome hsource
    by_cases hinstall : files.exists r.source = true ∧
        faults.fails (.rename r.source r.dest) = false
    · left
      obtain ⟨next, hplace, hnew, hnext⟩ :=
        rename_spec hsd (hsourceExists.trans hinstall.1) hinstall.2
      refine ⟨⟨fun hstale => eq_false_of_ne_true fun hfails => hstuck ⟨hstale, hfails⟩, hback,
        hinstall⟩, next, hnew.trans hsource, ?_, fun p hp => ?_, ?_⟩
      · rw [hnext _ hsb.symm hdb.symm, hbackup, hdest]
      · obtain ⟨hs, hd, hb⟩ := hoff p hp
        rw [hnext p hs hd, hhalf p hd hb, hkept p hb]
      · rw [replaceFrom, hcleared]
        dsimp only
        rw [hmove]
        dsimp only
        rw [hplace]
    · refine Or.inr (Or.inr ⟨fun hok => hinstall hok.installed, hstuck, half,
        "failed to install " ++ r.dest ++ ": " ++ faults.message (.rename r.source r.dest) ++
          "; rolled back", fun p hp => ?_, Or.inr ⟨hbackup.trans hdest, hback.1, ?_⟩⟩)
      · obtain ⟨-, hd, hb⟩ := hoff p hp
        rw [hhalf p hd hb, hkept p hb]
      · rw [replaceFrom, hcleared]
        dsimp only
        rw [hmove]
        dsimp only
        rw [rename_error fun hok => hinstall ⟨hsourceExists.symm.trans hok.1, hok.2⟩]
  · refine Or.inr (Or.inr ⟨fun hok => hback hok.backedUp, hstuck, cleared,
      "failed to back up " ++ r.dest ++ ": " ++ faults.message (.rename r.dest r.backup) ++
        "; rolled back", fun p hp => hkept p (hoff p hp).2.2, Or.inl ⟨hdest, ?_⟩⟩)
    rw [replaceFrom, hcleared]
    dsimp only
    rw [rename_error fun hok => hback ⟨hdestExists.symm.trans hok.1, hok.2⟩]

/-- Rolling replaced entries back gives every destination its first file, when the backups are in
place and the other destinations untouched. -/
theorem rollbackThen_spec {done rest : List FileReplacement} (hdistinct : Distinct (done ++ rest))
    (hsucceeds : RollbackSucceeds faults (done ++ rest))
    (hbackups : ∀ r ∈ done, files r.backup = start r.dest ∧ start.exists r.dest = true)
    (hrest : ∀ r ∈ rest, files r.dest = start r.dest) (message : String) :
    ∃ restored, rollbackThen faults files (backups done) message =
        (restored, .error (.rolledBack message)) ∧
      ∀ r ∈ done ++ rest, restored r.dest = start r.dest := by
  have hexists : ∀ r ∈ done, files.exists r.backup = true := by
    intro r hr
    rw [Files.exists, (hbackups r hr).1]
    exact (hbackups r hr).2
  obtain ⟨restored, hrollback, hrestored, hsame⟩ := rollbackReplacements_spec
    hdistinct.append_left (fun r hr => hsucceeds r (List.mem_append_left _ hr)) hexists
  refine ⟨restored, by rw [rollbackThen, hrollback], fun r hr => ?_⟩
  rcases List.mem_append.1 hr with hdone | hlater
  · rw [hrestored r hdone, (hbackups r hdone).1]
  · rw [hsame, hrest r hlater]
    intro q hq
    obtain ⟨before, after, rfl⟩ := List.append_of_mem hlater
    rw [← List.append_assoc] at hdistinct
    obtain ⟨-, hapart⟩ := hdistinct.middle
    have hfree := hapart q (Or.inl (List.mem_append_left _ hq)) r.dest (dest_mem r)
    exact ⟨fun heq => hfree (heq ▸ dest_mem q), fun heq => hfree (heq ▸ backup_mem q)⟩

/-- The same turn, after other entries were replaced. -/
theorem replaceFrom_cons {done rest : List FileReplacement} {r : FileReplacement}
    (hdistinct : Distinct (done ++ r :: rest))
    (hsucceeds : RollbackSucceeds faults (done ++ r :: rest)) (h : Installed start files done) :
    (Installs faults start r ∧ ∃ next, Installed start next (done ++ [r]) ∧
        replaceFrom faults files (backups done) (r :: rest) =
          replaceFrom faults next (backups (done ++ [r])) rest) ∨
      (StaleStuck faults start r ∧ ∃ message, replaceFrom faults files (backups done) (r :: rest) =
        (files, .error (.rolledBack message))) ∨
      (¬ Installs faults start r ∧ ¬ StaleStuck faults start r ∧ ∃ restored message,
        replaceFrom faults files (backups done) (r :: rest) =
          (restored, .error (.rolledBack message)) ∧
        ∀ q ∈ done ++ r :: rest, restored q.dest = start q.dest) := by
  obtain ⟨hr, hapart⟩ := hdistinct.middle
  have hstart : ∀ p ∈ r.paths, files p = start p := fun p hp =>
    h.others p fun q hq => hapart q (Or.inl hq) p hp
  have hexists : ∀ p ∈ r.paths, files.exists p = start.exists p := fun p hp =>
    congrArg Option.isSome (hstart p hp)
  have hinstalls : Installs faults files r ↔ Installs faults start r := by
    constructor <;> rintro ⟨hcleared, hback, hinstall⟩
    · rw [hexists _ (backup_mem r)] at hcleared
      rw [hexists _ (dest_mem r)] at hback
      rw [hexists _ (source_mem r)] at hinstall
      exact ⟨hcleared, hback, hinstall⟩
    · rw [← hexists _ (backup_mem r)] at hcleared
      rw [← hexists _ (dest_mem r)] at hback
      rw [← hexists _ (source_mem r)] at hinstall
      exact ⟨hcleared, hback, hinstall⟩
  have hstuck : StaleStuck faults files r ↔ StaleStuck faults start r := by
    rw [StaleStuck, StaleStuck, hexists _ (backup_mem r)]
  have hmoved : backups done ++ [(r.backup, r.dest)] = backups (done ++ [r]) := by
    rw [backups, backups, List.map_append]
    rfl
  -- what another entry has is not touched by this one
  have hother : ∀ q, q ∈ done ∨ q ∈ rest → ∀ p ∈ q.paths, p ∉ r.paths := fun q hq p hp hmem =>
    hapart q hq p hmem hp
  have hdests : ∀ q ∈ r :: rest, files q.dest = start q.dest := by
    intro q hq
    refine h.others _ fun x hx hmem => ?_
    obtain ⟨before, after, hsplit⟩ := List.append_of_mem hq
    rw [hsplit, ← List.append_assoc] at hdistinct
    exact hdistinct.middle.2 x (Or.inl (List.mem_append_left _ hx)) _ (dest_mem q) hmem
  rcases replaceFrom_turn hr (backups done) rest with ⟨hok, next, hnew, hbackup, hsame, hturn⟩ |
      ⟨hno, message, hturn⟩ | ⟨hbad, hno, half, message, hsame, hturn⟩
  · refine Or.inl ⟨hinstalls.1 hok, next, ⟨fun q hq => ?_, fun q hq => ?_, fun q hq => ?_,
      fun p hp => ?_⟩, hmoved ▸ hturn⟩
    · rcases List.mem_append.1 hq with hq | hq
      · rw [hsame _ (hother q (Or.inl hq) _ (dest_mem q)), h.dest q hq]
      · obtain rfl := List.mem_singleton.1 hq
        rw [hnew, hstart _ (source_mem q)]
    · rcases List.mem_append.1 hq with hq | hq
      · rw [hsame _ (hother q (Or.inl hq) _ (backup_mem q)), h.backup q hq]
      · obtain rfl := List.mem_singleton.1 hq
        rw [hbackup, hstart _ (dest_mem q)]
    · rcases List.mem_append.1 hq with hq | hq
      · exact h.had q hq
      · obtain rfl := List.mem_singleton.1 hq
        exact (hinstalls.1 hok).backedUp.1
    · rw [hsame p (hp r (List.mem_append_right _ List.mem_cons_self)),
        h.others p fun q hq => hp q (List.mem_append_left _ hq)]
  · exact Or.inr (Or.inl ⟨hstuck.1 hno, message, hturn⟩)
  · refine Or.inr (Or.inr ⟨fun hok => hbad (hinstalls.2 hok), fun hst => hno (hstuck.2 hst), ?_⟩)
    have hdone : ∀ q ∈ done, half q.backup = start q.dest ∧ start.exists q.dest = true := by
      intro q hq
      rw [hsame _ (hother q (Or.inl hq) _ (backup_mem q))]
      exact ⟨h.backup q hq, h.had q hq⟩
    have hlater : ∀ q ∈ rest, half q.dest = start q.dest := by
      intro q hq
      rw [hsame _ (hother q (Or.inr hq) _ (dest_mem q))]
      exact hdests q (List.mem_cons_of_mem _ hq)
    rcases hturn with ⟨hdest, hturn⟩ | ⟨hbackup, hhad, hturn⟩
    · obtain ⟨restored, hrollback, hrestored⟩ := rollbackThen_spec hdistinct hsucceeds hdone
        (fun q hq => by
          rcases List.mem_cons.1 hq with rfl | hq
          · exact hdest.trans (hdests q List.mem_cons_self)
          · exact hlater q hq) message
      exact ⟨restored, message, hturn.trans hrollback, hrestored⟩
    · -- this entry was moved, so it is rolled back with those before it
      have hshape : done ++ r :: rest = (done ++ [r]) ++ rest := by
        rw [List.append_assoc, List.singleton_append]
      rw [hshape] at hdistinct hsucceeds ⊢
      obtain ⟨restored, hrollback, hrestored⟩ := rollbackThen_spec hdistinct hsucceeds
        (fun q hq => by
          rcases List.mem_append.1 hq with hq | hq
          · exact hdone q hq
          · obtain rfl := List.mem_singleton.1 hq
            exact ⟨hbackup.trans (hstart _ (dest_mem q)), (hexists _ (dest_mem q)).symm.trans hhad⟩)
        hlater message
      exact ⟨restored, message, (hmoved ▸ hturn).trans hrollback, hrestored⟩

/-- The first entry that is not installed decides the run. -/
theorem replaceFrom_spec {done rest : List FileReplacement} (hdistinct : Distinct (done ++ rest))
    (hsucceeds : RollbackSucceeds faults (done ++ rest)) (h : Installed start files done) :
    ((∀ r ∈ rest, Installs faults start r) ∧ ∃ next, Installed start next (done ++ rest) ∧
        replaceFrom faults files (backups done) rest = (next, .ok (backups (done ++ rest)))) ∨
      ∃ mid r after, rest = mid ++ r :: after ∧ (∀ q ∈ mid, Installs faults start q) ∧
        ¬ Installs faults start r ∧
        ((StaleStuck faults start r ∧ ∃ next message, Installed start next (done ++ mid) ∧
            replaceFrom faults files (backups done) rest =
              (next, .error (.rolledBack message))) ∨
          (¬ StaleStuck faults start r ∧ ∃ restored message,
            replaceFrom faults files (backups done) rest =
              (restored, .error (.rolledBack message)) ∧
            ∀ q ∈ done ++ rest, restored q.dest = start q.dest)) := by
  induction rest generalizing files done with
  | nil =>
      refine Or.inl ⟨fun r hr => absurd hr List.not_mem_nil, files, ?_, ?_⟩
      · rwa [List.append_nil]
      · rw [List.append_nil, replaceFrom]
  | cons r rest ih =>
      rcases replaceFrom_cons hdistinct hsucceeds h with ⟨hok, next, hnext, hturn⟩ |
          ⟨hstuck, message, hturn⟩ | ⟨hbad, hno, restored, message, hturn, hrestored⟩
      · have hshape : done ++ r :: rest = (done ++ [r]) ++ rest := by
          rw [List.append_assoc, List.singleton_append]
        rw [hshape] at hdistinct hsucceeds
        rcases ih hdistinct hsucceeds hnext with ⟨hall, last, hlast, hrun⟩ |
            ⟨mid, s, after, rfl, hmid, hfirst, hcase⟩
        · refine Or.inl ⟨List.forall_mem_cons.2 ⟨hok, hall⟩, last, ?_, ?_⟩
          · rwa [hshape]
          · rw [hturn, hrun, hshape]
        · refine Or.inr ⟨r :: mid, s, after, rfl, List.forall_mem_cons.2 ⟨hok, hmid⟩, hfirst, ?_⟩
          rw [hturn, hshape]
          rw [List.append_assoc, List.singleton_append] at hcase
          exact hcase
      · refine Or.inr ⟨[], r, rest, rfl, fun q hq => absurd hq List.not_mem_nil,
          fun hok => hok.not_stuck hstuck, Or.inl ⟨hstuck, files, message, ?_, hturn⟩⟩
        rwa [List.append_nil]
      · exact Or.inr ⟨[], r, rest, rfl, fun q hq => absurd hq List.not_mem_nil, hbad,
          Or.inr ⟨hno, restored, message, hturn, hrestored⟩⟩

end Loop

/-! ### A failed update -/

section Update

variable {File : Type} (faults : Faults) (start : Files File) (rs : List FileReplacement)

/-- `RolledBack` says that every destination has its old file, and a list of backups that every
destination is new and can be restored from it. -/
def Kept : Files File × Except ReplaceError (List (String × String)) → Prop
  | (files, .ok moved) =>
      (∀ r ∈ rs, files r.dest = start r.source ∧ files r.backup = start r.dest) ∧
        ∃ restored, rollbackReplacements faults files moved = (restored, .ok ()) ∧
          ∀ r ∈ rs, restored r.dest = start r.dest
  | (files, .error (.rolledBack _)) => ∀ r ∈ rs, files r.dest = start r.dest
  | (_, .error (.rollbackFailed _)) => True

/-- The first entry that fails has a stale backup that cannot be removed, and an entry before it
has a new file. -/
def Stranded : Prop :=
  ∃ mid r after, rs = mid ++ r :: after ∧ (∀ q ∈ mid, Installs faults start q) ∧
    StaleStuck faults start r ∧ ∃ q ∈ mid, start q.source ≠ start q.dest

end Update

/-- The place of the first entry without a property is determined. -/
theorem first_unique {α : Type} {P : α → Prop} {before before' after after' : List α} {a a' : α}
    (hbefore : ∀ x ∈ before, P x) (ha : ¬ P a) (hbefore' : ∀ x ∈ before', P x) (ha' : ¬ P a')
    (h : before ++ a :: after = before' ++ a' :: after') : before = before' ∧ a = a' := by
  induction before generalizing before' with
  | nil =>
      rcases before' with - | ⟨b, before'⟩
      · exact ⟨rfl, (List.cons.inj h).1⟩
      · obtain ⟨rfl, -⟩ := List.cons.inj h
        exact absurd (hbefore' a List.mem_cons_self) ha
  | cons b before ih =>
      rcases before' with - | ⟨b', before'⟩
      · obtain ⟨rfl, -⟩ := List.cons.inj h
        exact absurd (hbefore b List.mem_cons_self) ha'
      · obtain ⟨rfl, htail⟩ := List.cons.inj h
        obtain ⟨rfl, rfl⟩ := ih (fun x hx => hbefore x (List.mem_cons_of_mem _ hx))
          (fun x hx => hbefore' x (List.mem_cons_of_mem _ hx)) htail
        exact ⟨rfl, rfl⟩

/-- An update keeps its word unless a stale backup stops it after a binary was replaced. -/
theorem replaceFilesTransaction_iff {File : Type} {faults : Faults} {rs : List FileReplacement}
    (hdistinct : Distinct rs) (hsucceeds : RollbackSucceeds faults rs) (start : Files File) :
    Kept faults start rs (replaceFilesTransaction faults start rs) ↔ ¬ Stranded faults start rs := by
  have hrun := @replaceFrom_spec File faults start start [] rs hdistinct hsucceeds
    (Installed.nil start)
  rw [show backups ([] : List FileReplacement) = [] from rfl, List.nil_append] at hrun
  rw [replaceFilesTransaction]
  rcases hrun with ⟨hall, next, hnext, hrun⟩ | ⟨mid, r, after, hrs, hmid, hfirst, hcase⟩
  · rw [hrun]
    refine iff_of_true ⟨fun r hr => ⟨hnext.dest r hr, hnext.backup r hr⟩, ?_⟩ ?_
    · have hbackups : ∀ r ∈ rs, next.exists r.backup = true := by
        intro r hr
        rw [Files.exists, hnext.backup r hr]
        exact hnext.had r hr
      obtain ⟨restored, hrollback, hrestored, -⟩ :=
        rollbackReplacements_spec hdistinct hsucceeds hbackups
      exact ⟨restored, hrollback, fun r hr => (hrestored r hr).trans (hnext.backup r hr)⟩
    · rintro ⟨mid, r, after, rfl, -, hstuck, -⟩
      exact (hall r (List.mem_append_right _ List.mem_cons_self)).not_stuck hstuck
  · rcases hcase with ⟨hstuck, next, message, hnext, hrun⟩ | ⟨hno, restored, message, hrun, hrestored⟩
    · rw [hrun]
      rw [List.nil_append] at hnext
      have hsplit : Distinct (mid ++ r :: after) := hrs ▸ hdistinct
      constructor
      · rintro hkept ⟨mid', r', after', hrs', hmid', hstuck', q, hq, hnew⟩
        obtain ⟨rfl, -⟩ := first_unique hmid hfirst hmid' (fun hok => hok.not_stuck hstuck')
          (hrs.symm.trans hrs')
        have hold : next q.dest = start q.dest := hkept q (hrs ▸ List.mem_append_left _ hq)
        exact hnew ((hnext.dest q hq).symm.trans hold)
      · intro hnot q hq
        rw [hrs] at hq
        rcases List.mem_append.1 hq with hq | hq
        · -- the entries before the failure were given the file they had
          rw [hnext.dest q hq]
          by_contra hne
          exact hnot ⟨mid, r, after, hrs, hmid, hstuck, q, hq, hne⟩
        · refine hnext.others _ fun x hx hmem => ?_
          obtain ⟨before, rest, hparts⟩ := List.append_of_mem hq
          rw [hparts, ← List.append_assoc] at hsplit
          exact hsplit.middle.2 x (Or.inl (List.mem_append_left _ hx)) _ (dest_mem q) hmem
    · rw [hrun]
      refine iff_of_true hrestored ?_
      rintro ⟨mid', r', after', hrs', hmid', hstuck', -⟩
      obtain ⟨-, rfl⟩ := first_unique hmid hfirst hmid' (fun hok => hok.not_stuck hstuck')
        (hrs.symm.trans hrs')
      exact hno hstuck'

/-! ### The two installed binaries -/

/-- The replacement of a binary with the staged and backup names of a process. -/
def binaryReplacement (name : String) : FileReplacement :=
  { source := ".memzoi-update-new-7-" ++ name
    dest := name
    backup := ".memzoi-update-backup-7-" ++ name }

def installedBinaries : List FileReplacement :=
  [binaryReplacement "memzoi", binaryReplacement "memzoi-mcp"]

/-- Both binaries are installed and staged, and something is at the second backup. -/
def binaryFiles : Files String := fun path =>
  if path = "memzoi" ∨ path = "memzoi-mcp" then some "old"
  else if path = ".memzoi-update-new-7-memzoi" ∨ path = ".memzoi-update-new-7-memzoi-mcp" then
    some "new"
  else if path = ".memzoi-update-backup-7-memzoi-mcp" then some "stale"
  else none

def faultsOf (operations : List FileOperation) : Faults :=
  { fails := fun operation => decide (operation ∈ operations), message := fun _ => "denied" }

theorem unstaged_update_kept :
    Kept (faultsOf [.rename ".memzoi-update-new-7-memzoi-mcp" "memzoi-mcp"]) binaryFiles
        installedBinaries
        (replaceFilesTransaction (faultsOf [.rename ".memzoi-update-new-7-memzoi-mcp" "memzoi-mcp"])
          binaryFiles installedBinaries) ↔
      ¬ Stranded (faultsOf [.rename ".memzoi-update-new-7-memzoi-mcp" "memzoi-mcp"]) binaryFiles
        installedBinaries :=
  replaceFilesTransaction_iff (by unfold Distinct; decide +kernel)
    (by unfold RollbackSucceeds; decide +kernel) binaryFiles

/-- The second backup cannot be removed: the first binary stays new, the second old, and the
update is reported as rolled back. -/
theorem stale_backup_strands :
    ∃ (faults : Faults) (start : Files String) (rs : List FileReplacement),
      Distinct rs ∧ RollbackSucceeds faults rs ∧
        ¬ Kept faults start rs (replaceFilesTransaction faults start rs) := by
  refine ⟨faultsOf [.remove ".memzoi-update-backup-7-memzoi-mcp"], binaryFiles, installedBinaries,
    by unfold Distinct; decide +kernel, by unfold RollbackSucceeds; decide +kernel, ?_⟩
  intro hkept
  have hmixed : (replaceFilesTransaction (faultsOf [.remove ".memzoi-update-backup-7-memzoi-mcp"])
      binaryFiles installedBinaries).1 "memzoi" = some "new" := by decide +kernel
  have hresult : ∃ files message, replaceFilesTransaction
      (faultsOf [.remove ".memzoi-update-backup-7-memzoi-mcp"]) binaryFiles installedBinaries =
        (files, .error (.rolledBack message)) :=
    ⟨_, "failed to remove stale backup .memzoi-update-backup-7-memzoi-mcp: denied", Prod.ext rfl (by
      decide +kernel)⟩
  obtain ⟨files, message, hrun⟩ := hresult
  rw [hrun] at hkept hmixed
  have hold : files "memzoi" = binaryFiles "memzoi" :=
    hkept (binaryReplacement "memzoi") List.mem_cons_self
  exact absurd (hmixed.symm.trans hold) (by decide +kernel)

end SelfUpdate
end Memzoi
