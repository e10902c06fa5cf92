import Rollout.Path

/-!
# Joined paths

A path that is looked up in a directory keeps its file name and its extension, whether or not the
directory ends in a slash, and whatever slashes and dots the path begins or ends with.

## Strategy

Cutting at slashes takes a joined text apart into the parts of the directory and those of the path;
the slash between the two may be written by the directory or come from the join (`toList_join`).
The file name is looked for from the end, so a path that has one is not looked at beyond its own
parts.
-/

namespace Rollout.Path

/-! ## The text of a joined path -/

variable {base path : Path}

/-- A joined path is the path itself, or the path with a directory and a slash before it. -/
theorem toList_join (base path : Path) :
    (base.join path).text.toList = path.text.toList ∨
      ∃ directory, (base.join path).text.toList = directory ++ '/' :: path.text.toList := by
  unfold join
  split
  · exact .inl rfl
  · split
    · next hbase =>
        rcases Bool.or_eq_true_iff.mp hbase with hempty | hslash
        · exact .inl (by simp [String.isEmpty_iff.mp hempty])
        -- the slash is the last character of the directory
        · have hlast : base.text.toList.getLast? = some '/' := beq_iff_eq.mp hslash
          obtain ⟨directory, hdirectory⟩ := List.getLast?_eq_some_iff.mp hlast
          exact .inr ⟨directory, by simp [hdirectory]⟩
    · exact .inr ⟨base.text.toList, by simp⟩

/-- A relative path comes after its directory, with one slash between the two, unless there is no
directory. -/
theorem text_join_of_relative (hrelative : path.isAbsolute = false) (hbase : base.text ≠ "") :
    (base.join path).text =
      if base.text.toList.getLast? = some '/' then base.text ++ path.text
      else base.text ++ "/" ++ path.text := by
  have hnonempty : base.text.isEmpty = false := by simpa using hbase
  rw [join, if_neg (by simp [hrelative]), hnonempty, Bool.false_or]
  by_cases hslash : base.text.toList.getLast? = some '/' <;> simp [hslash]

/-- There is nothing in a joined path that is in neither part, apart from the slash. -/
theorem mem_text_join {c : Char} (hc : c ∈ (base.join path).text.toList) :
    c ∈ base.text.toList ∨ c ∈ path.text.toList ∨ c = '/' := by
  unfold join at hc
  split at hc
  · exact .inr (.inl hc)
  · split at hc <;> simp only [String.toList_append, List.mem_append] at hc
    · exact hc.imp_right .inl
    · rcases hc with (hbase | hslash) | hpath
      · exact .inl hbase
      · exact .inr (.inr (by simpa using hslash))
      · exact .inr (.inl hpath)

/-! ## The last component -/

/-- Parts in front of those of a path do not matter when the path has a file name. -/
theorem fileName?_of_parts {longer : Path} {name : List Char} (front : List (List Char))
    (hparts : longer.parts = front ++ path.parts) (hname : path.fileName? = some name) :
    longer.fileName? = some name := by
  unfold fileName? at hname ⊢
  rw [hparts, List.reverse_append, List.dropWhile_append]
  split at hname
  · simp at hname
  · next last others hlast => simpa [hlast] using hname

theorem fileName?_join {name : List Char} (hname : path.fileName? = some name) :
    (base.join path).fileName? = some name := by
  rcases toList_join base path with hsame | ⟨directory, hjoined⟩
  · exact fileName?_of_parts [] (by simp [parts, hsame]) hname
  · refine fileName?_of_parts (splitSlashes directory) ?_ hname
    simp only [parts, hjoined, splitSlashes_eq_splitOn, List.splitOn_append_cons_self]

/-- **A path with an extension has it in every directory.** -/
theorem extension?_join {extension : String} (hextension : path.extension? = some extension) :
    (base.join path).extension? = some extension := by
  cases hname : path.fileName? with
  | none => simp [extension?, hname] at hextension
  | some name =>
      rw [extension?, hname] at hextension
      rw [extension?, fileName?_join hname]
      exact hextension

example : extension? (join ⟨"/srv/k8s/"⟩ ⟨"./a.yaml/."⟩) = some "yaml" := by decide +kernel

end Rollout.Path
