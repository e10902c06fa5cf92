/-!
# Paths

Paths of files, kept as the text that the user wrote.  They are joined, looked at and shown, and
never normalised: `a//b` and `a/./b` stay as they are.

The last component of a path, on which the extension depends, ignores trailing slashes and trailing
`.` components.
-/

namespace Rollout

/-- The path of a file or directory. -/
structure Path where
  text : String
  deriving DecidableEq, Repr, Inhabited

namespace Path

/-! ## Joining -/

/-- Whether a path starts at the root. -/
def isAbsolute (path : Path) : Bool :=
  path.text.toList.head? == some '/'

/-- The path `path` as seen from the directory `base`.  An absolute path stands for itself.  A slash
goes between the two parts unless the base is empty or ends in one. -/
def join (base path : Path) : Path :=
  if path.isAbsolute then path
  else if base.text.isEmpty || base.text.toList.getLast? == some '/' then ⟨base.text ++ path.text⟩
  else ⟨base.text ++ "/" ++ path.text⟩

@[simp]
theorem join_of_isAbsolute {base path : Path} (habsolute : path.isAbsolute = true) :
    base.join path = path := by
  simp [join, habsolute]

/-! ## Components -/

/-- The parts of a character list between slashes, empty ones included. -/
def splitSlashes : List Char → List (List Char)
  | [] => [[]]
  | c :: rest =>
      if c = '/' then [] :: splitSlashes rest
      else
        match splitSlashes rest with
        | [] => [[c]]
        | part :: parts => (c :: part) :: parts

theorem splitSlashes_eq_splitOn (text : List Char) : splitSlashes text = text.splitOn '/' := by
  induction text with
  | nil => rfl
  | cons c rest ih =>
      rw [splitSlashes, ih, List.splitOn_cons_eq_if_modifyHead]
      cases hparts : rest.splitOn '/' with
      | nil => exact absurd hparts (List.splitOn_ne_nil _ _)
      | cons part parts => by_cases hslash : c = '/' <;> simp [hslash]

/-- The parts of the path between slashes, empty ones included. -/
def parts (path : Path) : List (List Char) :=
  splitSlashes path.text.toList

/-- The last component that is neither empty nor `.`, unless it is `..`. -/
def fileName? (path : Path) : Option (List Char) :=
  match path.parts.reverse.dropWhile fun part => part = [] || part = ['.'] with
  | [] => none
  | name :: _ => if name = ['.', '.'] then none else some name

/-- A name cut at its last dot: what stands before the dot, and what stands after it. -/
def cutAtLastDot? (name : List Char) : Option (List Char × List Char) :=
  match name.reverse.dropWhile (· ≠ '.') with
  | [] => none
  | _ :: stem => some (stem.reverse, (name.reverse.takeWhile (· ≠ '.')).reverse)

/-- What stands after the last dot of the file name.  A name whose only dot is its first character
has no extension; a name that ends in a dot has the empty one. -/
def extension? (path : Path) : Option String :=
  match path.fileName?.bind cutAtLastDot? with
  | some (_ :: _, suffix) => some (String.ofList suffix)
  | _ => none

example : extension? ⟨"k8s/a.tar.yaml/./"⟩ = some "yaml" := by decide +kernel

example : extension? ⟨".yaml"⟩ = none := by decide +kernel

example : extension? ⟨"a."⟩ = some "" := by decide +kernel

example : extension? ⟨"a.yaml/.."⟩ = none := by decide +kernel

end Path
end Rollout
