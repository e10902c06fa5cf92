import Mathlib.Data.List.Forall2
import Mathlib.Data.Option.Basic
import Mathlib.Tactic.SplitIfs
import Rollout.Proofs.Toml.Lookahead

/-!
# Documents in which a text is exchanged

Two documents that are alike except that texts `old` in the first one may stand as `new` in the
second one.  What can be done with the first document can be done with the second one too, and the
outcomes are alike in the same way.

## Strategy

Keys and headers change a document as they do because of its names and of how its tables were
written, and both are the same in both documents.  So every way to change a document carries the
relation over (`Follows`), from the entries of a single table up to the statements of a document.
-/

namespace Rollout.Toml

variable {α β γ δ : Type}

/-! ## Results that follow each other -/

/-- When the first computation succeeds, the second one does as well, with a related result. -/
def Follows {ε : Type} (related : α → β → Prop) (first : Except ε α) (second : Except ε β) : Prop :=
  ∀ value, first = .ok value → ∃ other, second = .ok other ∧ related value other

section follows

variable {ε : Type} {related : α → β → Prop}

theorem follows_ok {value : α} {other : β} (hrelated : related value other) :
    Follows (ε := ε) related (.ok value) (.ok other) := by
  rintro _ ⟨⟩
  exact ⟨other, rfl, hrelated⟩

theorem follows_error (fault : ε) (second : Except ε β) :
    Follows related (.error fault) second := by
  rintro _ ⟨⟩

theorem follows_self {related : α → α → Prop} (hrefl : ∀ value, related value value)
    (result : Except ε α) : Follows related result result :=
  fun value hvalue => ⟨value, hvalue, hrefl value⟩

theorem Follows.bind {first : Except ε α} {second : Except ε β}
    (hfirst : Follows related first second) {after : γ → δ → Prop} {next : α → Except ε γ}
    {later : β → Except ε δ}
    (hnext : ∀ value other, related value other → Follows after (next value) (later other)) :
    Follows after (first >>= next) (second >>= later) := by
  intro result hresult
  obtain ⟨value, hvalue, hresult⟩ := bind_eq_ok.mp hresult
  obtain ⟨other, hother, hrelated⟩ := hfirst value hvalue
  obtain ⟨final, hfinal, hafter⟩ := hnext value other hrelated result hresult
  exact ⟨final, bind_eq_ok.mpr ⟨other, hother, hfinal⟩, hafter⟩

theorem Follows.map {first : Except ε α} {second : Except ε β}
    (hfirst : Follows related first second) {after : γ → δ → Prop} {change : α → γ} {twin : β → δ}
    (hchange : ∀ value other, related value other → after (change value) (twin other)) :
    Follows after (first.map change) (second.map twin) := by
  intro result hresult
  cases first with
  | error fault => cases hresult
  | ok value =>
      cases hresult
      obtain ⟨other, rfl, hrelated⟩ := hfirst value rfl
      exact ⟨twin other, rfl, hchange value other hrelated⟩

end follows

/-! ## Values -/

mutual

/-- The second value is the first one, except that texts `old` may be exchanged for `new`. -/
inductive Exchanged (old new : String) : Value → Value → Prop
  | same (value : Value) : Exchanged old new value value
  | text : Exchanged old new (.string old) (.string new)
  | array {growing : Bool} {items others : List Value}
      (hitems : ExchangedItems old new items others) :
      Exchanged old new (.array growing items) (.array growing others)
  | table {origin : Origin} {entries others : Entries}
      (hentries : ExchangedEntries old new entries others) :
      Exchanged old new (.table origin entries) (.table origin others)

/-- The same for the items of arrays, one by one. -/
inductive ExchangedItems (old new : String) : List Value → List Value → Prop
  | nil : ExchangedItems old new [] []
  | cons {item other : Value} {items others : List Value} (hitem : Exchanged old new item other)
      (hitems : ExchangedItems old new items others) :
      ExchangedItems old new (item :: items) (other :: others)

/-- The same for the entries of tables, which have the same names in the same order. -/
inductive ExchangedEntries (old new : String) : Entries → Entries → Prop
  | nil : ExchangedEntries old new [] []
  | cons {value other : Value} {entries others : Entries} (name : String)
      (hvalue : Exchanged old new value other)
      (hentries : ExchangedEntries old new entries others) :
      ExchangedEntries old new ((name, value) :: entries) ((name, other) :: others)

end

section values

variable {old new : String}

theorem exchangedItems_self (items : List Value) : ExchangedItems old new items items := by
  induction items with
  | nil => exact .nil
  | cons item items ih => exact .cons (.same item) ih

theorem exchangedEntries_self (entries : Entries) : ExchangedEntries old new entries entries := by
  induction entries with
  | nil => exact .nil
  | cons entry entries ih => exact .cons entry.1 (.same entry.2) ih

theorem Exchanged.array_inv {growing : Bool} {items : List Value} {other : Value}
    (hvalue : Exchanged old new (.array growing items) other) :
    ∃ others, other = .array growing others ∧ ExchangedItems old new items others := by
  cases hvalue with
  | same => exact ⟨items, rfl, exchangedItems_self items⟩
  | array hitems => exact ⟨_, rfl, hitems⟩

theorem Exchanged.table_inv {origin : Origin} {entries : Entries} {other : Value}
    (hvalue : Exchanged old new (.table origin entries) other) :
    ∃ others, other = .table origin others ∧ ExchangedEntries old new entries others := by
  cases hvalue with
  | same => exact ⟨entries, rfl, exchangedEntries_self entries⟩
  | table hentries => exact ⟨_, rfl, hentries⟩

theorem ExchangedItems.append {first second third fourth : List Value}
    (hfront : ExchangedItems old new first second) (hback : ExchangedItems old new third fourth) :
    ExchangedItems old new (first ++ third) (second ++ fourth) := by
  induction first generalizing second with
  | nil => cases hfront; exact hback
  | cons item items ih => cases hfront with | cons hitem hitems => exact .cons hitem (ih hitems)

theorem ExchangedItems.dropLast {items others : List Value}
    (hitems : ExchangedItems old new items others) :
    ExchangedItems old new items.dropLast others.dropLast := by
  induction items generalizing others with
  | nil => cases hitems; exact .nil
  | cons item items ih =>
      cases hitems with
      | cons hitem hitems =>
          cases hitems with
          | nil => exact .nil
          | cons hnext hlater =>
              have hitems := ih (.cons hnext hlater)
              exact .cons hitem hitems

theorem ExchangedItems.getLast? {items others : List Value}
    (hitems : ExchangedItems old new items others) :
    Option.Rel (Exchanged old new) items.getLast? others.getLast? := by
  induction items generalizing others with
  | nil => cases hitems; exact .none
  | cons item items ih =>
      cases hitems with
      | cons hitem hitems =>
          cases hitems with
          | nil => exact .some hitem
          | cons hnext hlater =>
              have hlast := ih (.cons hnext hlater)
              exact hlast

theorem ExchangedEntries.append {first second third fourth : Entries}
    (hfront : ExchangedEntries old new first second)
    (hback : ExchangedEntries old new third fourth) :
    ExchangedEntries old new (first ++ third) (second ++ fourth) := by
  induction first generalizing second with
  | nil => cases hfront; exact hback
  | cons entry entries ih =>
      cases hfront with | cons name hvalue hentries => exact .cons name hvalue (ih hentries)

theorem ExchangedEntries.lookup {entries others : Entries}
    (hentries : ExchangedEntries old new entries others) (name : String) :
    Option.Rel (Exchanged old new) (entries.lookup name) (others.lookup name) := by
  induction entries generalizing others with
  | nil => cases hentries; exact .none
  | cons entry entries ih =>
      cases hentries with
      | cons found hvalue hentries =>
          rw [List.lookup_cons, List.lookup_cons]
          cases name == found with
          | true => exact .some hvalue
          | false => exact ih hentries

/-! ## Tables -/

theorem ExchangedEntries.replaceEntry {entries others : Entries}
    (hentries : ExchangedEntries old new entries others) (name : String) {value other : Value}
    (hvalue : Exchanged old new value other) :
    ExchangedEntries old new (Toml.replaceEntry name value entries)
      (Toml.replaceEntry name other others) := by
  induction entries generalizing others with
  | nil => cases hentries; exact .nil
  | cons entry entries ih =>
      cases hentries with
      | cons found hfound hentries =>
          unfold Toml.replaceEntry
          by_cases hname : found = name
          · rw [if_pos hname, if_pos hname]
            exact .cons name hvalue hentries
          · rw [if_neg hname, if_neg hname]
            exact .cons found hfound (ih hentries)

theorem ExchangedEntries.concat {entries others : Entries}
    (hentries : ExchangedEntries old new entries others) (name : String) {value other : Value}
    (hvalue : Exchanged old new value other) :
    ExchangedEntries old new (entries ++ [(name, value)]) (others ++ [(name, other)]) :=
  hentries.append (.cons name hvalue .nil)

theorem follows_addEntry (name : String) {value other : Value}
    (hvalue : Exchanged old new value other) {entries others : Entries}
    (hentries : ExchangedEntries old new entries others) :
    Follows (ExchangedEntries old new) (addEntry name value entries)
      (addEntry name other others) := by
  have hlookup := hentries.lookup name
  unfold addEntry
  generalize entries.lookup name = found?, others.lookup name = twin? at hlookup ⊢
  cases hlookup with
  | none => exact follows_ok (hentries.concat name hvalue)
  | some hfound => exact follows_error _ _

theorem follows_editLast (name : String) {edit change : Origin → Entries → Except Fault Entries}
    (hedit : ∀ origin entries others, ExchangedEntries old new entries others →
      Follows (ExchangedEntries old new) (edit origin entries) (change origin others))
    {items others : List Value} (hitems : ExchangedItems old new items others) :
    Follows (ExchangedItems old new) (editLast name edit items) (editLast name change others) := by
  have hlast := hitems.getLast?
  unfold editLast
  generalize items.getLast? = last?, others.getLast? = twin? at hlast ⊢
  cases hlast with
  | none => exact follows_error _ _
  | @some last other hvalue =>
      cases last with
      | table origin entries =>
          obtain ⟨inner, rfl, hentries⟩ := hvalue.table_inv
          refine (hedit origin entries inner hentries).bind fun _ _ hgrown => ?_
          exact follows_ok (hitems.dropLast.append (.cons (.table hgrown) .nil))
      | _ => exact follows_error _ _

/-- The tables on the way to a changed table are the same. -/
theorem follows_editAt (dotted : Bool) {edit change : Origin → Entries → Except Fault Entries}
    (hedit : ∀ origin entries others, ExchangedEntries old new entries others →
      Follows (ExchangedEntries old new) (edit origin entries) (change origin others))
    (key : List String) (origin : Origin) {entries others : Entries}
    (hentries : ExchangedEntries old new entries others) :
    Follows (ExchangedEntries old new) (editAt dotted edit key origin entries)
      (editAt dotted change key origin others) := by
  induction key generalizing origin entries others with
  | nil => exact hedit origin entries others hentries
  | cons name rest ih =>
      have hlookup := hentries.lookup name
      unfold editAt
      generalize entries.lookup name = found?, others.lookup name = twin? at hlookup ⊢
      cases hlookup with
      | none =>
          refine (ih _ .nil).bind fun _ _ hgrown => ?_
          exact follows_ok (hentries.concat name (.table hgrown))
      | @some found other hvalue =>
          cases found with
          | table inside inner =>
              obtain ⟨inners, rfl, hinner⟩ := hvalue.table_inv
              dsimp only
              split_ifs
              · exact follows_error _ _
              · refine (ih inside hinner).bind fun _ _ hgrown => ?_
                exact follows_ok (hentries.replaceEntry name (.table hgrown))
          | array growing items =>
              obtain ⟨later, rfl, hitems⟩ := hvalue.array_inv
              cases growing with
              | false => exact follows_error _ _
              | true =>
                  have hlast := follows_editLast name (fun origin _ _ => ih origin) hitems
                  refine hlast.bind fun _ _ hgrown => ?_
                  exact follows_ok (hentries.replaceEntry name (.array hgrown))
          | _ => exact follows_error _ _

theorem follows_assign (key : List String) {value other : Value}
    (hvalue : Exchanged old new value other) (origin : Origin) {entries others : Entries}
    (hentries : ExchangedEntries old new entries others) :
    Follows (ExchangedEntries old new) (assign key value origin entries)
      (assign key other origin others) := by
  unfold assign
  cases key.getLast? with
  | none => exact follows_error _ _
  | some name =>
      refine follows_editAt true (fun parent entries others hentries => ?_) _ origin hentries
      split_ifs
      · exact follows_error _ _
      · exact follows_addEntry name hvalue hentries

/-! ## Statements -/

theorem follows_openTable (name : String) {entries others : Entries}
    (hentries : ExchangedEntries old new entries others) :
    Follows (ExchangedEntries old new) (openTable name entries) (openTable name others) := by
  have hlookup := hentries.lookup name
  unfold openTable
  generalize entries.lookup name = found?, others.lookup name = twin? at hlookup ⊢
  cases hlookup with
  | none => exact follows_ok (hentries.concat name (.same _))
  | @some found other hvalue =>
      cases found with
      | table inside inner =>
          obtain ⟨inners, rfl, hinner⟩ := hvalue.table_inv
          cases inside with
          | implied => exact follows_ok (hentries.replaceEntry name (.table hinner))
          | _ => exact follows_error _ _
      | _ => exact follows_error _ _

theorem follows_openElement (name : String) {entries others : Entries}
    (hentries : ExchangedEntries old new entries others) :
    Follows (ExchangedEntries old new) (openElement name entries) (openElement name others) := by
  have hlookup := hentries.lookup name
  unfold openElement
  generalize entries.lookup name = found?, others.lookup name = twin? at hlookup ⊢
  cases hlookup with
  | none => exact follows_ok (hentries.concat name (.same _))
  | @some found other hvalue =>
      cases found with
      | array growing items =>
          obtain ⟨later, rfl, hitems⟩ := hvalue.array_inv
          cases growing with
          | false => exact follows_error _ _
          | true =>
              have hlonger := hitems.append (.cons (.same (.table .header [])) .nil)
              exact follows_ok (hentries.replaceEntry name (.array hlonger))
      | _ => exact follows_error _ _

theorem follows_openHeader (element : Bool) (key : List String) {root other : Entries}
    (hroot : ExchangedEntries old new root other) :
    Follows (ExchangedEntries old new) (openHeader element key root)
      (openHeader element key other) := by
  unfold openHeader
  cases key.getLast? with
  | none => exact follows_error _ _
  | some name =>
      refine follows_editAt false (fun _ entries others hentries => ?_) _ .header hroot
      cases element with
      | true => exact follows_openElement name hentries
      | false => exact follows_openTable name hentries

/-- Statements that are alike but for the value of an assignment. -/
inductive ExchangedStatement (old new : String) : Statement → Statement → Prop
  | same (statement : Statement) : ExchangedStatement old new statement statement
  | assignment (key : List String) {value other : Value} (hvalue : Exchanged old new value other) :
      ExchangedStatement old new (.assignment key value) (.assignment key other)

theorem follows_build {statements others : List Statement}
    (hstatements : List.Forall₂ (ExchangedStatement old new) statements others)
    (current : List String) {root other : Entries} (hroot : ExchangedEntries old new root other) :
    Follows (ExchangedEntries old new) (build current root statements)
      (build current other others) := by
  induction hstatements generalizing current root other with
  | nil => exact follows_ok hroot
  | @cons statement twin later rest hstatement hlater ih =>
      have hassign : ∀ key (value changed : Value), Exchanged old new value changed →
          Follows (ExchangedEntries old new) (build current root (.assignment key value :: later))
            (build current other (.assignment key changed :: rest)) := by
        intro key value changed hvalue
        refine (follows_editAt false (fun origin _ _ => follows_assign key hvalue origin) current
          .header hroot).bind fun _ _ hgrown => ?_
        exact ih current hgrown
      cases hstatement with
      | same =>
          cases statement with
          | header element key =>
              exact (follows_openHeader element key hroot).bind fun _ _ hgrown =>
                ih key hgrown
          | assignment key value => exact hassign key value value (.same value)
      | assignment key hvalue => exact hassign key _ _ hvalue

end values

end Rollout.Toml
