import Mathlib.Data.List.TakeWhile
import Rollout.Path

/-!
# Names of files

The name of a file is the last component of its path, whatever slashes and dots come after it.  Its
extension is what follows the last dot of the name, and there must be something before that dot.

## Strategy

Both are looked for from the end, the name among the parts of the path and the dot among the
characters of the name.  Dropping elements from the end of a list stops at the last one that is kept
(`eq_of_dropWhile_reverse`, `dropWhile_reverse_append`), which is the last component of the path in
the first case (`fileName?_eq_some_iff`) and the last dot of the name in the second
(`cutAtLastDot?_eq_some_iff`).  Parts become text again by putting the slashes back between them
(`intercalate_append_cons`).
-/

namespace Rollout.Path

/-! ## Looking from the end -/

section fromEnd

variable {α : Type} {p : α → Bool} {value : α}

/-- What is dropped from the end of a list, and the element that is kept before it. -/
theorem eq_of_dropWhile_reverse {values others : List α}
    (hkept : values.reverse.dropWhile p = value :: others) :
    values = others.reverse ++ value :: (values.reverse.takeWhile p).reverse ∧
      (∀ other ∈ (values.reverse.takeWhile p).reverse, p other = true) ∧ p value = false := by
  refine ⟨?_, fun other hother => ?_, ?_⟩
  · have hsplit := List.takeWhile_append_dropWhile (p := p) (l := values.reverse)
    rw [hkept] at hsplit
    simpa using (congrArg List.reverse hsplit).symm
  · exact List.mem_takeWhile_imp (List.mem_reverse.mp hother)
  · have hhead := List.head?_dropWhile_not p values.reverse
    simpa [hkept] using hhead

variable {front dropped : List α} (hdropped : ∀ other ∈ dropped, p other = true)
  (hvalue : p value = false)

include hdropped hvalue

theorem dropWhile_reverse_append :
    (front ++ value :: dropped).reverse.dropWhile p = value :: front.reverse := by
  rw [List.reverse_append, List.reverse_cons, List.append_assoc,
    List.dropWhile_append_of_pos (by simpa using hdropped)]
  simp [hvalue]

theorem takeWhile_reverse_append :
    (front ++ value :: dropped).reverse.takeWhile p = dropped.reverse := by
  rw [List.reverse_append, List.reverse_cons, List.append_assoc,
    List.takeWhile_append_of_pos (by simpa using hdropped)]
  simp [hvalue]

end fromEnd

/-! ## Parts of a path -/

theorem notMem_of_mem_splitSlashes {text part : List Char} (hpart : part ∈ splitSlashes text) :
    '/' ∉ part := by
  induction text generalizing part with
  | nil =>
      rw [List.mem_singleton.mp hpart]
      exact List.not_mem_nil
  | cons c rest ih =>
      rw [splitSlashes] at hpart
      by_cases hslash : c = '/'
      · rw [if_pos hslash] at hpart
        rcases List.mem_cons.mp hpart with rfl | hlater
        · exact List.not_mem_nil
        · exact ih hlater
      · rw [if_neg hslash] at hpart
        cases hparts : splitSlashes rest with
        | nil =>
            rw [hparts] at hpart
            rw [List.mem_singleton.mp hpart]
            simpa using Ne.symm hslash
        | cons first others =>
            rw [hparts] at hpart ih
            rcases List.mem_cons.mp hpart with rfl | hlater
            · simpa [Ne.symm hslash] using ih List.mem_cons_self
            · exact ih (List.mem_cons_of_mem first hlater)

/-- A part and those after it, each with its slash. -/
theorem intercalate_cons (name : List Char) (later : List (List Char)) :
    ['/'].intercalate (name :: later) = name ++ later.flatMap ('/' :: ·) := by
  induction later generalizing name with
  | nil => simp
  | cons part rest ih => simp [List.intercalate_cons_cons, ih part]

/-- The text of the parts, seen from one of them. -/
theorem intercalate_append_cons (front : List (List Char)) (name : List Char)
    (later : List (List Char)) :
    ['/'].intercalate (front ++ name :: later) =
      front.flatMap (· ++ ['/']) ++ name ++ later.flatMap ('/' :: ·) := by
  induction front with
  | nil => simp [intercalate_cons]
  | cons part rest ih =>
      rw [List.cons_append, List.intercalate_cons_of_ne_nil (by simp), ih]
      simp

/-! ## The last component -/

/-- What may come after the last component of a path. -/
inductive IsTrailing : List Char → Prop
  | nil : IsTrailing []
  | slash {rest : List Char} : IsTrailing rest → IsTrailing ('/' :: rest)
  | slashDot {rest : List Char} : IsTrailing rest → IsTrailing ('/' :: '.' :: rest)

/-- The last component of a path.  Before it there is nothing or a slash, and after it there is only
what does not count. -/
def IsLastComponent (text name : List Char) : Prop :=
  ∃ front tail, text = front ++ name ++ tail ∧
    (front = [] ∨ ∃ directory, front = directory ++ ['/']) ∧ IsTrailing tail ∧
    '/' ∉ name ∧ name ≠ [] ∧ name ≠ ['.']

/-- The parts after the last component are empty or a dot. -/
theorem isTrailing_iff (text : List Char) :
    IsTrailing text ↔ ∃ later : List (List Char), (∀ part ∈ later, part = [] ∨ part = ['.']) ∧
      text = later.flatMap ('/' :: ·) := by
  constructor
  · intro htrailing
    induction htrailing with
    | nil => exact ⟨[], by simp, rfl⟩
    | slash _ ih =>
        obtain ⟨later, hlater, rfl⟩ := ih
        exact ⟨[] :: later, List.forall_mem_cons.mpr ⟨.inl rfl, hlater⟩, rfl⟩
    | slashDot _ ih =>
        obtain ⟨later, hlater, rfl⟩ := ih
        exact ⟨['.'] :: later, List.forall_mem_cons.mpr ⟨.inr rfl, hlater⟩, rfl⟩
  · rintro ⟨later, hlater, rfl⟩
    induction later with
    | nil => exact .nil
    | cons part rest ih =>
        obtain ⟨hpart, hrest⟩ := List.forall_mem_cons.mp hlater
        rcases hpart with rfl | rfl
        · exact .slash (ih hrest)
        · exact .slashDot (ih hrest)

/-- The last component among the parts of a path. -/
theorem isLastComponent_iff (text name : List Char) :
    IsLastComponent text name ↔
      ∃ front later, splitSlashes text = front ++ name :: later ∧
        (∀ part ∈ later, part = [] ∨ part = ['.']) ∧ name ≠ [] ∧ name ≠ ['.'] := by
  simp only [IsLastComponent, isTrailing_iff]
  constructor
  · rintro ⟨front, _, rfl, hfront, ⟨later, hlater, rfl⟩, hslash, hname⟩
    have hparts : (name ++ later.flatMap ('/' :: ·)).splitOn '/' = name :: later := by
      rw [← intercalate_cons]
      refine List.splitOn_intercalate '/' ?_ (List.cons_ne_nil _ _)
      rw [List.forall_mem_cons]
      refine ⟨hslash, fun part hpart => ?_⟩
      rcases hlater part hpart with rfl | rfl <;> decide
    rw [splitSlashes_eq_splitOn, List.append_assoc]
    rcases hfront with rfl | ⟨directory, rfl⟩
    · exact ⟨[], later, hparts, hlater, hname⟩
    · refine ⟨directory.splitOn '/', later, ?_, hlater, hname⟩
      rw [List.append_assoc, List.singleton_append, List.splitOn_append_cons_self, hparts]
  · rintro ⟨front, later, hparts, hlater, hname⟩
    have htext : text = front.flatMap (· ++ ['/']) ++ name ++ later.flatMap ('/' :: ·) := by
      rw [← intercalate_append_cons, ← hparts, splitSlashes_eq_splitOn, List.intercalate_splitOn]
    have hmem : name ∈ splitSlashes text := by
      rw [hparts]
      exact List.mem_append_right front List.mem_cons_self
    refine ⟨_, _, htext, ?_, ⟨later, hlater, rfl⟩, notMem_of_mem_splitSlashes hmem, hname⟩
    -- what comes before the last component ends with the slash of the part before it
    rcases front.eq_nil_or_concat with rfl | ⟨others, part, rfl⟩
    · exact .inl rfl
    · exact .inr ⟨others.flatMap (· ++ ['/']) ++ part, by simp [List.concat_eq_append]⟩

theorem fileName?_eq_some_iff (path : Path) (name : List Char) :
    path.fileName? = some name ↔
      IsLastComponent path.text.toList name ∧ name ≠ ['.', '.'] := by
  rw [isLastComponent_iff, fileName?, parts]
  constructor
  · intro hname
    split at hname
    · simp at hname
    · next last others hkept =>
        split at hname
        · simp at hname
        · next hparent =>
            obtain rfl := Option.some.inj hname
            obtain ⟨hparts, hlater, hlast⟩ := eq_of_dropWhile_reverse hkept
            exact ⟨⟨_, _, hparts, by simpa using hlater, by simpa using hlast⟩, hparent⟩
  · rintro ⟨⟨front, later, hparts, hlater, hname⟩, hparent⟩
    rw [hparts, dropWhile_reverse_append (by simpa using hlater) (by simpa using hname)]
    exact if_neg hparent

/-! ## The extension -/

theorem cutAtLastDot?_eq_some_iff (name stem suffix : List Char) :
    cutAtLastDot? name = some (stem, suffix) ↔ name = stem ++ '.' :: suffix ∧ '.' ∉ suffix := by
  rw [cutAtLastDot?]
  constructor
  · intro hcut
    split at hcut
    · simp at hcut
    · next dot others hkept =>
        obtain ⟨rfl, rfl⟩ := Prod.mk.inj (Option.some.inj hcut)
        obtain ⟨hname, hsuffix, hdot⟩ := eq_of_dropWhile_reverse hkept
        obtain rfl : dot = '.' := by simpa using hdot
        exact ⟨hname, fun hmem => by simpa using hsuffix '.' hmem⟩
  · rintro ⟨rfl, hsuffix⟩
    have hdropped : ∀ c ∈ suffix, decide (c ≠ '.') = true := fun c hc =>
      decide_eq_true (ne_of_mem_of_not_mem hc hsuffix)
    have hdot : decide ('.' ≠ '.') = false := by decide
    rw [dropWhile_reverse_append hdropped hdot, takeWhile_reverse_append hdropped hdot,
      List.reverse_reverse]
    exact congrArg (fun front => some (front, suffix)) stem.reverse_reverse

/-- The name of a file ends in the extension, after a dot that has something before it.  The
directory `..` is not the name of a file. -/
def HasExtension (file extension : String) : Prop :=
  ∃ name stem, IsLastComponent file.toList name ∧ name ≠ ['.', '.'] ∧
    name = stem ++ '.' :: extension.toList ∧ '.' ∉ extension.toList ∧ stem ≠ []

theorem extension?_eq_some_iff (file extension : String) :
    extension? ⟨file⟩ = some extension ↔ HasExtension file extension := by
  rw [extension?]
  constructor
  · intro hextension
    split at hextension
    · next first others suffix hcut =>
        obtain rfl := Option.some.inj hextension
        obtain ⟨name, hname, hcut⟩ := Option.bind_eq_some_iff.mp hcut
        obtain ⟨hlast, hparent⟩ := (fileName?_eq_some_iff ⟨file⟩ name).mp hname
        obtain ⟨hends, hsuffix⟩ := (cutAtLastDot?_eq_some_iff name _ suffix).mp hcut
        rw [← String.toList_ofList (l := suffix)] at hends hsuffix
        exact ⟨name, _, hlast, hparent, hends, hsuffix, List.cons_ne_nil _ _⟩
    · simp at hextension
  · rintro ⟨name, stem, hlast, hparent, hends, hsuffix, hstem⟩
    have hname := (fileName?_eq_some_iff ⟨file⟩ name).mpr ⟨hlast, hparent⟩
    have hcut := (cutAtLastDot?_eq_some_iff name stem extension.toList).mpr ⟨hends, hsuffix⟩
    obtain ⟨first, others, rfl⟩ := List.exists_cons_of_ne_nil hstem
    rw [hname, Option.bind_some, hcut]
    exact congrArg some String.ofList_toList

end Rollout.Path
