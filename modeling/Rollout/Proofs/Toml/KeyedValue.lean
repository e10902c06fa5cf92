import Mathlib.Tactic.SplitIfs
import Rollout.Proofs.Toml.Place

/-!
# The value of a key under a header

A quoted value that a key is given under the header of a table is the value of that key in that
table.  With another plain string in its place the document differs there and nowhere else.

## Strategy

What a document says is a matter of looking names up.  Two root tables differ at a path if the names
of the path lead to different strings, and every other name on the way finds the same in both
(`TablesDifferAt`).  The statements before the place are the same, so they build the same table, and
the header makes sure that the key finds a table to be put into (`Stands`).  Those after the place
cannot undo the difference, since a string is neither entered nor replaced: every way to change a
document keeps it (`follows_build_of_differ`).
-/

namespace Rollout.Toml

variable {old new : String}

/-! ## Looking names up -/

theorem lookup_concat (entries : Entries) (name : String) (value : Value) (found : String) :
    (entries ++ [(name, value)]).lookup found =
      (entries.lookup found).or (if found = name then some value else none) := by
  rw [List.lookup_append, List.lookup_cons, List.lookup_nil]
  by_cases hname : found = name
  · simp [hname]
  · simp [hname, beq_eq_false_iff_ne.mpr hname]

theorem lookup_replaceEntry (name : String) (value : Value) (entries : Entries) (found : String) :
    (replaceEntry name value entries).lookup found =
      if found = name then (entries.lookup name).map fun _ => value else entries.lookup found := by
  induction entries with
  | nil => simp [replaceEntry]
  | cons entry entries ih =>
      obtain ⟨first, kept⟩ := entry
      unfold replaceEntry
      by_cases hfirst : first = name
      · subst hfirst
        by_cases hfound : found = first
        · simp [hfound]
        · simp [hfound, List.lookup_cons, beq_eq_false_iff_ne.mpr hfound]
      · have hname : (name == first) = false := beq_eq_false_iff_ne.mpr (Ne.symm hfirst)
        rw [if_neg hfirst, List.lookup_cons, List.lookup_cons, List.lookup_cons, ih, hname]
        by_cases hfound : found = name
        · simp [hfound, hname]
        · simp [hfound]

/-! ## Tables that differ at one place -/

mutual

/-- The path leads to the text `old` in the first value and to `new` in the second one. -/
inductive DifferAt (old new : String) : List String → Value → Value → Prop
  | text : DifferAt old new [] (.string old) (.string new)
  | table {path : List String} (origin : Origin) {entries others : Entries}
      (htables : TablesDifferAt old new path entries others) :
      DifferAt old new path (.table origin entries) (.table origin others)

/-- The same for tables, in which all names beside the path find the same. -/
inductive TablesDifferAt (old new : String) : List String → Entries → Entries → Prop
  | under {name : String} {path : List String} {entries others : Entries} {value other : Value}
      (hold : entries.lookup name = some value) (hnew : others.lookup name = some other)
      (hvalue : DifferAt old new path value other)
      (haside : ∀ found ≠ name, others.lookup found = entries.lookup found) :
      TablesDifferAt old new (name :: path) entries others

end

namespace TablesDifferAt

variable {path rest : List String} {name : String} {entries others : Entries} {value other : Value}

/-- A name stands beside the path or is the next one on it. -/
theorem lookup (htables : TablesDifferAt old new path entries others) (name : String) :
    (path.head? ≠ some name ∧ others.lookup name = entries.lookup name) ∨
      ∃ rest value other, path = name :: rest ∧ entries.lookup name = some value ∧
        others.lookup name = some other ∧ DifferAt old new rest value other := by
  obtain @⟨first, rest, _, _, value, other, hold, hnew, hvalue, haside⟩ := htables
  by_cases hname : name = first
  · subst hname
    exact .inr ⟨rest, value, other, rfl, hold, hnew, hvalue⟩
  · exact .inl ⟨by simpa using Ne.symm hname, haside name hname⟩

theorem concat (htables : TablesDifferAt old new path entries others) (name : String)
    (added : Value) :
    TablesDifferAt old new path (entries ++ [(name, added)]) (others ++ [(name, added)]) := by
  obtain ⟨hold, hnew, hvalue, haside⟩ := htables
  refine .under ?_ ?_ hvalue fun found hfound => ?_
  · rw [lookup_concat, hold, Option.some_or]
  · rw [lookup_concat, hnew, Option.some_or]
  · rw [lookup_concat, lookup_concat, haside found hfound]

/-- A name beside the path may get another value. -/
theorem replace_aside (htables : TablesDifferAt old new path entries others)
    (hname : path.head? ≠ some name) (put : Value) :
    TablesDifferAt old new path (replaceEntry name put entries) (replaceEntry name put others) := by
  obtain @⟨first, rest, _, _, value, other, hold, hnew, hvalue, haside⟩ := htables
  have hfirst : first ≠ name := by simpa using hname
  refine .under ?_ ?_ hvalue fun found hfound => ?_
  · rw [lookup_replaceEntry, if_neg hfirst, hold]
  · rw [lookup_replaceEntry, if_neg hfirst, hnew]
  · rw [lookup_replaceEntry, lookup_replaceEntry, haside found hfound, haside name hfirst.symm]

/-- The next name on the path may get values that differ farther on. -/
theorem replace_next (htables : TablesDifferAt old new (name :: rest) entries others)
    (hvalue : DifferAt old new rest value other) :
    TablesDifferAt old new (name :: rest) (replaceEntry name value entries)
      (replaceEntry name other others) := by
  obtain ⟨hold, hnew, -, haside⟩ := htables
  refine .under ?_ ?_ hvalue fun found hfound => ?_
  · rw [lookup_replaceEntry, if_pos rfl, hold, Option.map_some]
  · rw [lookup_replaceEntry, if_pos rfl, hnew, Option.map_some]
  · rw [lookup_replaceEntry, lookup_replaceEntry, if_neg hfound, if_neg hfound, haside found hfound]

end TablesDifferAt

/-! ## Changing tables that differ -/

section changing

variable {path : List String} {entries others : Entries}
  (htables : TablesDifferAt old new path entries others)

include htables

theorem follows_addEntry_of_differ (name : String) (value : Value) :
    Follows (TablesDifferAt old new path) (addEntry name value entries)
      (addEntry name value others) := by
  unfold addEntry
  rcases htables.lookup name with ⟨-, hsame⟩ | ⟨rest, found, twin, -, hold, -, -⟩
  · rw [hsame]
    cases entries.lookup name with
    | none => exact follows_ok (htables.concat name value)
    | some found => exact follows_error _ _
  · rw [hold]
    exact follows_error _ _

theorem follows_openTable_of_differ (name : String) :
    Follows (TablesDifferAt old new path) (openTable name entries) (openTable name others) := by
  unfold openTable
  rcases htables.lookup name with ⟨haside, hsame⟩ | ⟨rest, found, twin, rfl, hold, hnew, hvalue⟩
  · rw [hsame]
    cases entries.lookup name with
    | none => exact follows_ok (htables.concat name _)
    | some found =>
        cases found with
        | table origin inner =>
            cases origin with
            | implied => exact follows_ok (htables.replace_aside haside _)
            | _ => exact follows_error _ _
        | _ => exact follows_error _ _
  · rw [hold, hnew]
    cases hvalue with
    | text => exact follows_error _ _
    | table origin hinner =>
        cases origin with
        | implied => exact follows_ok (htables.replace_next (.table .header hinner))
        | _ => exact follows_error _ _

theorem follows_openElement_of_differ (name : String) :
    Follows (TablesDifferAt old new path) (openElement name entries) (openElement name others) := by
  unfold openElement
  rcases htables.lookup name with ⟨haside, hsame⟩ | ⟨rest, found, twin, rfl, hold, hnew, hvalue⟩
  · rw [hsame]
    cases entries.lookup name with
    | none => exact follows_ok (htables.concat name _)
    | some found =>
        cases found with
        | array growing items =>
            cases growing with
            | false => exact follows_error _ _
            | true => exact follows_ok (htables.replace_aside haside _)
        | _ => exact follows_error _ _
  · rw [hold]
    cases hvalue <;> exact follows_error _ _

end changing

/-- A change of some table inside is a change that keeps the difference, if it does so in every
table. -/
theorem follows_editAt_of_differ (dotted : Bool) {edit : Origin → Entries → Except Fault Entries}
    (hedit : ∀ path origin entries others, TablesDifferAt old new path entries others →
      Follows (TablesDifferAt old new path) (edit origin entries) (edit origin others))
    (key : List String) (origin : Origin) {path : List String} {entries others : Entries}
    (htables : TablesDifferAt old new path entries others) :
    Follows (TablesDifferAt old new path) (editAt dotted edit key origin entries)
      (editAt dotted edit key origin others) := by
  induction key generalizing origin path entries others with
  | nil => exact hedit path origin entries others htables
  | cons name later ih =>
      unfold editAt
      rcases htables.lookup name with ⟨haside, hsame⟩ | ⟨rest, found, twin, rfl, hold, hnew, hvalue⟩
      · -- the table that is changed is the same in both
        rw [hsame]
        cases entries.lookup name with
        | none =>
            refine (follows_self (fun _ => rfl) _).bind ?_
            rintro grown _ rfl
            exact follows_ok (htables.concat name _)
        | some found =>
            cases found with
            | table inside inner =>
                dsimp only
                split_ifs
                · exact follows_error _ _
                · refine (follows_self (fun _ => rfl) _).bind ?_
                  rintro grown _ rfl
                  exact follows_ok (htables.replace_aside haside _)
            | array growing items =>
                cases growing with
                | false => exact follows_error _ _
                | true =>
                    refine (follows_self (fun _ => rfl) _).bind ?_
                    rintro grown _ rfl
                    exact follows_ok (htables.replace_aside haside _)
            | _ => exact follows_error _ _
      · rw [hold, hnew]
        cases hvalue with
        | text => exact follows_error _ _
        | table inside hinner =>
            dsimp only
            split_ifs
            · exact follows_error _ _
            · refine (ih inside hinner).bind fun _ _ hgrown => ?_
              exact follows_ok (htables.replace_next (.table inside hgrown))

theorem follows_assign_of_differ (key : List String) (value : Value) (origin : Origin)
    {path : List String} {entries others : Entries}
    (htables : TablesDifferAt old new path entries others) :
    Follows (TablesDifferAt old new path) (assign key value origin entries)
      (assign key value origin others) := by
  unfold assign
  cases key.getLast? with
  | none => exact follows_error _ _
  | some name =>
      refine follows_editAt_of_differ true (fun path parent entries others htables => ?_) _ origin
        htables
      split_ifs
      · exact follows_error _ _
      · exact follows_addEntry_of_differ htables name value

theorem follows_openHeader_of_differ (element : Bool) (key : List String) {path : List String}
    {root other : Entries} (hroot : TablesDifferAt old new path root other) :
    Follows (TablesDifferAt old new path) (openHeader element key root)
      (openHeader element key other) := by
  unfold openHeader
  cases key.getLast? with
  | none => exact follows_error _ _
  | some name =>
      refine follows_editAt_of_differ false (fun path _ entries others htables => ?_) _ .header
        hroot
      cases element with
      | true => exact follows_openElement_of_differ htables name
      | false => exact follows_openTable_of_differ htables name

/-- No statement undoes a difference. -/
theorem follows_build_of_differ (statements : List Statement) (current : List String)
    {path : List String} {root other : Entries} (hroot : TablesDifferAt old new path root other) :
    Follows (TablesDifferAt old new path) (build current root statements)
      (build current other statements) := by
  induction statements generalizing current root other with
  | nil => exact follows_ok hroot
  | cons statement later ih =>
      cases statement with
      | header element key =>
          exact (follows_openHeader_of_differ element key hroot).bind fun _ _ hgrown =>
            ih key hgrown
      | assignment key value =>
          refine (follows_editAt_of_differ false (fun path origin _ _ htables =>
            follows_assign_of_differ key value origin htables) current .header hroot).bind
              fun _ _ hgrown => ?_
          exact ih current hgrown

/-! ## The table of a header -/

/-- Whether what follows a statement stands right under the header `[title]`; `under` tells whether
the statement itself does. -/
def Statement.standsUnder (title : String) (under : Bool) : Statement → Bool
  | .header element key => !element && key = [title]
  | .assignment .. => under

/-- What is read right under the header `[title]` goes into the table with that name. -/
def Stands (title : String) (under : Bool) (current : List String) (root : Entries) : Prop :=
  under = true → current = [title] ∧
    ∃ origin entries, root.lookup title = some (.table origin entries)

section stands

variable {title : String} {under : Bool} {current : List String} {root grown : Entries}

theorem stands_openHeader {element : Bool} {key : List String}
    (hopen : openHeader element key root = .ok grown) :
    Stands title (Statement.standsUnder title under (.header element key)) key grown := by
  intro hunder
  obtain ⟨rfl, rfl⟩ : element = false ∧ key = [title] := by
    simpa [Statement.standsUnder] using hunder
  refine ⟨rfl, ?_⟩
  have hopen : openTable title root = .ok grown := hopen
  unfold openTable at hopen
  cases hfound : root.lookup title with
  | none =>
      rw [hfound] at hopen
      obtain rfl := Except.ok.inj hopen
      exact ⟨.header, [], by rw [lookup_concat, hfound, if_pos rfl, Option.none_or]⟩
  | some found =>
      rw [hfound] at hopen
      cases found with
      | table origin inner =>
          cases origin with
          | implied =>
              obtain rfl := Except.ok.inj hopen
              exact ⟨.header, inner, by rw [lookup_replaceEntry, if_pos rfl, hfound]; rfl⟩
          | _ => cases hopen
      | _ => cases hopen

/-- A key under the header changes the table with the title. -/
theorem editAt_title {origin : Origin} {entries : Entries}
    (htitle : root.lookup title = some (.table origin entries)) (key : List String)
    (value : Value) :
    editAt false (assign key value) [title] .header root =
      if origin = .braces then .error (.closed title)
      else (assign key value origin entries).map fun inner =>
        replaceEntry title (.table origin inner) root := by
  rw [editAt, htitle]
  simp only [Bool.false_and, Bool.or_false, decide_eq_true_eq, editAt_nil]
  cases assign key value origin entries <;> rfl

theorem Stands.assign (hstands : Stands title under current root) {key : List String}
    {value : Value} (hedit : editAt false (assign key value) current .header root = .ok grown) :
    Stands title under current grown := by
  intro hunder
  obtain ⟨rfl, origin, entries, htitle⟩ := hstands hunder
  rw [editAt_title htitle] at hedit
  split_ifs at hedit
  cases hassign : Toml.assign key value origin entries with
  | error fault => rw [hassign] at hedit; cases hedit
  | ok inner =>
      rw [hassign] at hedit
      obtain rfl := Except.ok.inj hedit
      exact ⟨rfl, origin, inner, by rw [lookup_replaceEntry, if_pos rfl, htitle]; rfl⟩

theorem assign_singleton (name : String) (value : Value) (origin : Origin) (entries : Entries) :
    Toml.assign [name] value origin entries = addEntry name value entries := by
  simp [Toml.assign]

/-- A key that gets one text or another under the header makes the table differ there. -/
theorem Stands.follows_assign (hstands : Stands title true current root) (name : String) :
    Follows (TablesDifferAt old new [title, name])
      (editAt false (Toml.assign [name] (.string old)) current .header root)
      (editAt false (Toml.assign [name] (.string new)) current .header root) := by
  obtain ⟨rfl, origin, entries, htitle⟩ := hstands rfl
  rw [editAt_title htitle, editAt_title htitle, assign_singleton, assign_singleton, addEntry,
    addEntry]
  split_ifs
  · exact follows_error _ _
  cases hname : entries.lookup name with
  | some found => exact follows_error _ _
  | none =>
      have hlookup : ∀ value found, (entries ++ [(name, value)]).lookup found =
          if found = name then some value else entries.lookup found := by
        intro value found
        rw [lookup_concat]
        by_cases hfound : found = name
        · simp [hfound, hname]
        · simp [hfound]
      have hinner : TablesDifferAt old new [name] (entries ++ [(name, .string old)])
          (entries ++ [(name, .string new)]) := by
        refine .under ?_ ?_ .text fun found hfound => ?_
        · rw [hlookup, if_pos rfl]
        · rw [hlookup, if_pos rfl]
        · rw [hlookup, hlookup, if_neg hfound, if_neg hfound]
      refine follows_ok (.under ?_ ?_ (.table origin hinner) fun found hfound => ?_)
      · rw [lookup_replaceEntry, if_pos rfl, htitle, Option.map_some]
      · rw [lookup_replaceEntry, if_pos rfl, htitle, Option.map_some]
      · rw [lookup_replaceEntry, lookup_replaceEntry, if_neg hfound, if_neg hfound]

/-- With the same statements before it and after it, a key that gets one text or another right under
the header makes the whole document differ there. -/
theorem Stands.follows_build {earlier : List Statement} (hstands : Stands title under current root)
    (hunder : earlier.foldl (Statement.standsUnder title) under = true) (name : String)
    (later : List Statement) :
    Follows (TablesDifferAt old new [title, name])
      (build current root (earlier ++ .assignment [name] (.string old) :: later))
      (build current root (earlier ++ .assignment [name] (.string new) :: later)) := by
  induction earlier generalizing under current root with
  | nil =>
      obtain rfl : under = true := hunder
      exact (hstands.follows_assign name).bind fun _ _ hgrown =>
        follows_build_of_differ later current hgrown
  | cons statement earlier ih =>
      intro result hresult
      cases statement with
      | header element key =>
          obtain ⟨grown, hopen, hresult⟩ := bind_eq_ok.mp hresult
          obtain ⟨other, hother, hdiffer⟩ := ih (stands_openHeader hopen) hunder result hresult
          exact ⟨other, bind_eq_ok.mpr ⟨grown, hopen, hother⟩, hdiffer⟩
      | assignment key value =>
          obtain ⟨grown, hedit, hresult⟩ := bind_eq_ok.mp hresult
          obtain ⟨other, hother, hdiffer⟩ := ih (hstands.assign hedit) hunder result hresult
          exact ⟨other, bind_eq_ok.mpr ⟨grown, hedit, hother⟩, hdiffer⟩

end stands

/-! ## Places under a header -/

/-- Statements that are read from the given characters on lead, right under the header `[title]`, to
the value of the key `name`, which is at the place. -/
inductive KeyReaches (place : List Char) (title name : String) : Bool → List Char → Prop
  | here {chars : List Char} (hplain : (skipFiller false chars).head? ≠ some '[')
      (hname : readStatementName (skipFiller false chars) = .ok ([name], place)) :
      KeyReaches place title name true chars
  | later {under : Bool} {chars between rest : List Char} {statement : Statement}
      (hstatement : ReadsStatement (skipFiller false chars) statement between)
      (hend : endOfLine between = .ok rest)
      (hlater : KeyReaches place title name (statement.standsUnder title under) rest) :
      KeyReaches place title name under chars

namespace KeyReaches

variable {title name : String} {under : Bool} {chars seen after : List Char}

theorem reaches {place : List Char} (hreaches : KeyReaches place title name under chars) :
    Reaches place .statements chars := by
  induction hreaches with
  | here hplain hname => exact .statement hplain hname (.here _)
  | later hstatement hend hlater ih => exact .laterStatement hstatement hend ih

/-- The statements of the document are the same with every plain string, except for the string. -/
theorem exists_statements (hreaches : KeyReaches (quoted seen after) title name under chars)
    (hafter : after.head? ≠ some '"') :
    ∃ front earlier, chars = front ++ quoted seen after ∧
      earlier.foldl (Statement.standsUnder title) under = true ∧
      ∀ text, (∀ c ∈ text, StandsForItself c) → ∀ statements,
        ReadsStatements (front ++ quoted text after) statements →
        ∃ rest later, endOfLine after = .ok rest ∧ ReadsStatements rest later ∧
          statements = earlier ++ .assignment [name] (.string (.ofList text)) :: later := by
  have hsome : ∀ (start text : List Char), start ++ quoted text after ≠ [] := by
    intro start text
    simp [quoted]
  -- the statements before the place are read one by one, and they are the same with every string
  induction hreaches with
  | here hplain hname =>
      obtain ⟨start, hstart, hnames⟩ := local_readStatementName.retext
        (show Reads readStatementName _ [name] ([] ++ quoted seen after) from hname)
      obtain ⟨front, rfl, hskip⟩ := skipFiller_retext hstart
      refine ⟨front, [], rfl, rfl, ?_⟩
      intro text hplains statements hread
      rw [hskip] at hplain
      obtain ⟨statement, between, rest, later, hstatement, hend, hlater, rfl⟩ :=
        (readsStatements_iff (by rw [hskip]; exact hsome start text)).mp hread
      rw [hskip] at hstatement
      obtain ⟨key, named, value, hkey, hvalue, rfl⟩ :=
        (readsStatement_iff (head?_ne_retext hplain text)).mp hstatement
      obtain ⟨rfl, rfl⟩ := Prod.mk.inj (Except.ok.inj ((hnames text).symm.trans hkey))
      obtain ⟨rfl, rfl⟩ := (readsValue_quoted hplains hafter maxDepth).unique hvalue
      exact ⟨rest, later, hend, hlater, rfl⟩
  | later hstatement hend hlater ih =>
      obtain ⟨inner, earlier, rfl, hunder, hstatements⟩ := ih
      obtain ⟨middle, rfl, hends⟩ :=
        local_endOfLine.retext (show Passes endOfLine _ () _ from hend)
      obtain ⟨start, hstart, hfirst⟩ := local_readsStatement.retext hstatement
      obtain ⟨front, rfl, hskip⟩ := skipFiller_retext hstart
      refine ⟨front, _ :: earlier, rfl, hunder, ?_⟩
      intro text hplains statements hread
      obtain ⟨found, between, rest, others, hfound, hfoundEnd, hothers, rfl⟩ :=
        (readsStatements_iff (by rw [hskip]; exact hsome start text)).mp hread
      rw [hskip] at hfound
      obtain ⟨rfl, rfl⟩ := (hfirst text).unique hfound
      obtain rfl : inner ++ quoted text after = rest :=
        Except.ok.inj ((hends text).symm.trans hfoundEnd)
      obtain ⟨last, later, hlast, hlater, rfl⟩ := hstatements text hplains others hothers
      exact ⟨last, later, hlast, hlater, rfl⟩

end KeyReaches

theorem ReadsStatements.unique {chars : List Char} {statements others : List Statement}
    (hread : ReadsStatements chars statements) (hother : ReadsStatements chars others) :
    others = statements := by
  obtain ⟨_, _, hread⟩ := hread
  obtain ⟨_, _, hother⟩ := hother
  have hsame := (readStatements_of_le hother (Nat.le_refl _) (Nat.le_refl _)).symm.trans
    (readStatements_of_le hread (Nat.le_refl _) (Nat.le_refl _))
  exact Except.ok.inj hsame

/-- A document in which the key is given its value right under the header differs, with one plain
string or another there, in the value of the key and in nothing else. -/
theorem differ_of_parse {front seen after old new : List Char} {title name : String}
    (hreaches : KeyReaches (quoted seen after) title name false
      (dropMark (front ++ quoted seen after)))
    (hafter : after.head? ≠ some '"') (hold : ∀ c ∈ old, StandsForItself c)
    (hnew : ∀ c ∈ new, StandsForItself c) {root other : Entries}
    (hroot : parse (.ofList (front ++ quoted old after)) = .ok root)
    (hother : parse (.ofList (front ++ quoted new after)) = .ok other) :
    TablesDifferAt (.ofList old) (.ofList new) [title, name] root other := by
  have hdrop : ∀ text, dropMark (front ++ quoted text after) =
      dropMark front ++ quoted text after := fun text => dropMark_quote front _
  obtain ⟨start, earlier, hstart, hunder, hstatements⟩ := hreaches.exists_statements hafter
  obtain rfl : start = dropMark front := by
    rw [hdrop] at hstart
    exact (List.append_cancel_right hstart).symm
  obtain ⟨statements, hread, hbuild⟩ := parse_eq_ok.mp hroot
  obtain ⟨twins, htwins, hrebuild⟩ := parse_eq_ok.mp hother
  rw [String.toList_ofList, hdrop] at hread htwins
  obtain ⟨rest, later, hend, hlater, rfl⟩ := hstatements old hold statements hread
  obtain ⟨last, others, hlast, hothers, rfl⟩ := hstatements new hnew twins htwins
  -- what follows the place is the same characters, so it is the same statements
  obtain rfl := Except.ok.inj (hend.symm.trans hlast)
  obtain rfl := hlater.unique hothers
  have hstands : Stands title false [] [] := fun hfalse => by cases hfalse
  obtain ⟨found, hfound, hdiffer⟩ := hstands.follows_build hunder name _ root hbuild
  obtain rfl := Except.ok.inj (hfound.symm.trans hrebuild)
  exact hdiffer

end Rollout.Toml
