/-
# Listing the audit events (`api/routers/events.py`)

`_collect_all_events` puts the rotated files together again: it lists the directory, takes the
names `<stem>.<n><suffix>` for archives, sorts them by their number and reads them one after the
other, the active file last.  The order of `iterdir` is arbitrary, and so is that of `names` here.

`AuditFiles` knows an archive by its number; `fileNames` and `contents` are the directory that the
listing sees.  The two views agree as long as the suffix is not empty: the slice that takes the
number out of a name ends at `-len(suffix)`, which is `0` for an empty one.

`str.isdigit` is also true of digits outside ASCII; no name in such a directory holds one.
-/
import AegisShield.Audit.Chain
import Mathlib.Data.List.Sort

namespace AegisShield

open Lib

/-! ## 1. Names -/

/-- The name of an archive, as `_next_archive_path` makes it. -/
def archiveName (stem suffix : String) (n : Nat) : String := s!"{stem}.{n}{suffix}"

/-- `name[len(stem) + 1 : -len(suffix)]`. -/
def middle (stem suffix name : String) : List Char :=
  let stop := if suffix.length = 0 then 0 else name.length - suffix.length
  (name.toList.take stop).drop (stem.length + 1)

/-- The number of an archive, if the name is that of one. -/
def archiveNumber (stem suffix name : String) : Option Nat :=
  if ¬ (stem ++ ".").toList <+: name.toList ∨ ¬ suffix.toList <:+ name.toList then none
  else
    let digits := middle stem suffix name
    if digits ≠ [] ∧ digits.all Char.isDigit then some (Nat.ofDigitChars 10 digits 0) else none

/-- `archives` after its sort. -/
def archivesIn (stem suffix : String) (names : List String) : List (Nat × String) :=
  (names.filterMap fun name =>
    if name = stem ++ suffix then none
    else (archiveNumber stem suffix name).map fun n => (n, name)).mergeSort fun a b => a.1 ≤ b.1

/-! ## 2. Reading -/

/-- `_read_log_file`, on the content of a file if it exists. -/
def readLogFile (R : Runtime) : Option Bytes → Except Raised (List R.Value)
  | none => .ok []
  | some file => ((splitLines file).filter fun raw => !blank raw).mapM R.loads

/-- `_collect_all_events`. -/
def collectAllEvents (R : Runtime) (stem suffix : String) (names : List String)
    (contents : String → Option Bytes) : Except Raised (List R.Value) := do
  let archived ← (archivesIn stem suffix names).mapM fun a => readLogFile R (contents a.2)
  let active ← readLogFile R (contents (stem ++ suffix))
  return archived.flatten ++ active

namespace AuditFiles

/-- The names in the directory of a log. -/
def fileNames (stem suffix : String) (f : AuditFiles) : List String :=
  (if f.active.isSome then [stem ++ suffix] else []) ++
    f.archives.map fun a => archiveName stem suffix a.1

/-- The content of a file of the directory. -/
def contents (stem suffix : String) (f : AuditFiles) (name : String) : Option Bytes :=
  if name = stem ++ suffix then f.active
  else (f.archives.find? fun a => archiveName stem suffix a.1 = name).map Prod.snd

end AuditFiles

/-! ## 3. Names and numbers -/

section Names

variable {stem suffix : String}

theorem archiveName_toList (n : Nat) :
    (archiveName stem suffix n).toList =
      (stem ++ ".").toList ++ (Nat.toDigits 10 n ++ suffix.toList) := by
  have h : archiveName stem suffix n = stem ++ "." ++ n.repr ++ suffix := rfl
  rw [h, String.toList_append, String.toList_append, Nat.toList_repr, List.append_assoc]

theorem middle_archiveName (hsuffix : suffix ≠ "") (n : Nat) :
    middle stem suffix (archiveName stem suffix n) = Nat.toDigits 10 n := by
  have hlen : suffix.length ≠ 0 := by
    intro h
    exact hsuffix (String.length_eq_zero_iff.mp h)
  have hname : (archiveName stem suffix n).toList =
      ((stem ++ ".").toList ++ Nat.toDigits 10 n) ++ suffix.toList := by
    rw [archiveName_toList, List.append_assoc]
  have hstop : (archiveName stem suffix n).length - suffix.length =
      ((stem ++ ".").toList ++ Nat.toDigits 10 n).length := by
    rw [← String.length_toList, hname, List.length_append, String.length_toList,
      Nat.add_sub_cancel]
  have hskip : stem.length + 1 = (stem ++ ".").toList.length := by
    rw [String.length_toList, String.length_append]
    rfl
  simp only [middle, if_neg hlen]
  rw [hstop, hname, List.take_left, hskip, List.drop_left]

/-- **The number in an archive's name.** -/
theorem archiveNumber_archiveName (hsuffix : suffix ≠ "") (n : Nat) :
    archiveNumber stem suffix (archiveName stem suffix n) = some n := by
  have hprefix : (stem ++ ".").toList <+: (archiveName stem suffix n).toList := by
    rw [archiveName_toList]
    exact List.prefix_append _ _
  have htail : suffix.toList <:+ (archiveName stem suffix n).toList := by
    rw [archiveName_toList, ← List.append_assoc]
    exact List.suffix_append _ _
  have hdigits : (Nat.toDigits 10 n).all Char.isDigit = true := by
    rw [List.all_eq_true]
    intro c hc
    exact Nat.isDigit_of_mem_toDigits (by decide) (by decide) hc
  rw [archiveNumber, if_neg (not_or.mpr ⟨not_not_intro hprefix, not_not_intro htail⟩),
    middle_archiveName hsuffix]
  simp only [ne_eq, Nat.toDigits_ne_nil, not_false_eq_true, hdigits, and_self, if_true,
    Nat.ofDigitChars_ten_toDigits]

theorem archiveName_ne_active (n : Nat) : archiveName stem suffix n ≠ stem ++ suffix := by
  intro h
  have hlen := congrArg (fun s => s.toList.length) h
  simp only [archiveName_toList, String.toList_append, List.length_append] at hlen
  have hdot : ".".toList.length = 1 := rfl
  omega

theorem archiveName_injective (hsuffix : suffix ≠ "") {n m : Nat}
    (h : archiveName stem suffix n = archiveName stem suffix m) : n = m := by
  have hn : archiveNumber stem suffix (archiveName stem suffix n) = some n :=
    archiveNumber_archiveName hsuffix n
  rw [h, archiveNumber_archiveName hsuffix] at hn
  exact (Option.some.inj hn).symm

/-- **The archives of a directory are found in the order of their numbers**, in whatever order
their names are listed. -/
theorem archivesIn_fileNames (hsuffix : suffix ≠ "") {f : AuditFiles}
    (hsorted : (f.archives.map Prod.fst).Pairwise (· < ·)) {names : List String}
    (hnames : names.Perm (f.fileNames stem suffix)) :
    archivesIn stem suffix names =
      f.archives.map fun a => (a.1, archiveName stem suffix a.1) := by
  let pick : String → Option (Nat × String) := fun name =>
    if name = stem ++ suffix then none
    else (archiveNumber stem suffix name).map fun n => (n, name)
  let found := f.archives.map fun a => (a.1, archiveName stem suffix a.1)
  have hpick : (f.fileNames stem suffix).filterMap pick = found := by
    have hactive : (if f.active.isSome then [stem ++ suffix] else []).filterMap pick = [] := by
      split <;> simp [pick]
    have harchives : (f.archives.map fun a => archiveName stem suffix a.1).filterMap pick =
        found := by
      rw [List.filterMap_map]
      have hname : ∀ a ∈ f.archives, (pick ∘ fun a => archiveName stem suffix a.1) a =
          some (a.1, archiveName stem suffix a.1) := by
        intro a _
        simp only [Function.comp, pick, if_neg (archiveName_ne_active a.1),
          archiveNumber_archiveName hsuffix, Option.map_some]
      rw [List.filterMap_congr hname]
      exact congrFun (List.filterMap_eq_map (f := fun a : Nat × Bytes =>
        (a.1, archiveName stem suffix a.1))) f.archives
    rw [AuditFiles.fileNames, List.filterMap_append, hactive, harchives, List.nil_append]
  have hperm : (names.filterMap pick).Perm found := by
    rw [← hpick]
    exact hnames.filterMap pick
  have hordered : found.Pairwise fun a b => decide (a.1 ≤ b.1) := by
    rw [List.pairwise_map] at hsorted
    rw [List.pairwise_map]
    exact hsorted.imp fun h => by simpa using h.le
  -- a name is determined by its number, so the sort has only one result
  refine List.Perm.eq_of_pairwise ?_
    (List.pairwise_mergeSort (by simp; omega) (by simp; omega) _) hordered
    ((List.mergeSort_perm _ _).trans hperm)
  intro a b ha hb hab hba
  obtain ⟨x, -, rfl⟩ := List.mem_map.mp hb
  obtain ⟨y, -, rfl⟩ := List.mem_map.mp (hperm.subset ((List.mergeSort_perm _ _).subset ha))
  simp only [decide_eq_true_eq] at hab hba
  have hxy : y.1 = x.1 := Nat.le_antisymm hab hba
  rw [hxy]

theorem contents_active (f : AuditFiles) : f.contents stem suffix (stem ++ suffix) = f.active := by
  simp [AuditFiles.contents]

theorem contents_archive (hsuffix : suffix ≠ "") {f : AuditFiles}
    (hsorted : (f.archives.map Prod.fst).Pairwise (· < ·)) {n : Nat} {file : Bytes}
    (h : (n, file) ∈ f.archives) :
    f.contents stem suffix (archiveName stem suffix n) = some file := by
  have hfind : f.archives.find? (fun a => archiveName stem suffix a.1 =
      archiveName stem suffix n) = some (n, file) := by
    obtain ⟨pre, post, hsplit⟩ := List.append_of_mem h
    rw [hsplit, List.find?_append]
    have hpre : pre.find? (fun a => archiveName stem suffix a.1 = archiveName stem suffix n) =
        none := by
      rw [List.find?_eq_none]
      intro a ha
      simp only [decide_eq_true_eq]
      intro heq
      rw [hsplit, List.map_append, List.pairwise_append] at hsorted
      have hlt := hsorted.2.2 a.1 (List.mem_map_of_mem ha) n (by simp)
      exact absurd (archiveName_injective hsuffix heq) (Nat.ne_of_lt hlt)
    rw [hpre]
    simp
  rw [AuditFiles.contents, if_neg (archiveName_ne_active n), hfind]
  rfl

end Names

end AegisShield
