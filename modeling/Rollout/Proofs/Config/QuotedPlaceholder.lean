import Mathlib.Logic.Function.Basic
import Rollout.Proofs.Config.SectionKey
import Rollout.Proofs.Config.Substitution

/-!
# Options that are written as quoted placeholders

A text option may be written as a placeholder in double quotes.  Then the option takes the value of
the variable as it is, and nothing else in the configuration depends on that value, as long as each
of its characters stands for itself in a quoted string.

Placeholders are replaced before the text is read as a document, and the values are put in without
being quoted in any way.  So a double quote in a value ends the string and what follows it is read
as a part of the document, and a backslash starts an escape.

## Strategy

The text that is read is the expansion of what stands before the placeholder, the quoted value, and
the expansion of what follows.  Only the value depends on the variable.  So with two values the
documents are alike except for a string (`Toml.parse_of_reaches`), and so are the configurations
(`Config.follows_decode`).  When two values have been seen to make a difference for one option and
for nothing else, this holds for every third value.

When the placeholder is the value of a key right under the header of a section, its place says which
option that is: the documents differ in this key and in nothing else (`Toml.differ_of_parse`).
-/

namespace Rollout

open Toml (Reaches quoted dropMark StandsForItself)

/-- A text with a placeholder in double quotes.  The placeholder is one that is found, since none is
open before it, and its variable is asked for nowhere else. -/
structure QuotedPlaceholder where
  before : List Char
  name : String
  after : List Char
  closed : Placeholder.Closed before
  name_ne_empty : name ≠ ""
  brace_notMem : '\x7d' ∉ name.toList
  notMem_before : name ∉ Placeholder.names before
  notMem_after : name ∉ Placeholder.names after

namespace QuotedPlaceholder

variable (placeholder : QuotedPlaceholder) (lookup : String → Option String)

/-- The text as it is written. -/
def text : String :=
  .ofList (placeholder.before ++ quoted (Placeholder.written placeholder.name.toList)
    placeholder.after)

/-- The variables with a value for the one of the placeholder. -/
def assign (value : String) : String → Option String :=
  Function.update lookup placeholder.name (some value)

/-- The text that is read when the placeholder is replaced in the given way. -/
def document (replaced : List Char) : List Char :=
  Placeholder.expandChars lookup placeholder.before ++
    quoted replaced (Placeholder.expandChars lookup placeholder.after)

/-- In the document in which only this placeholder is left as it is, the quoted placeholder is a
value, and nothing else belongs to its string. -/
structure StandsAsValue : Prop where
  reaches : Reaches
    (quoted (Placeholder.written placeholder.name.toList)
      (Placeholder.expandChars lookup placeholder.after)) .statements
    (dropMark (placeholder.document lookup (Placeholder.written placeholder.name.toList)))
  after : (Placeholder.expandChars lookup placeholder.after).head? ≠ some '"'

theorem expand_text (value : String) :
    Placeholder.expand (placeholder.assign lookup value) placeholder.text =
      .ofList (placeholder.document lookup value.toList) := by
  have hsame : ∀ chars, placeholder.name ∉ Placeholder.names chars →
      Placeholder.expandChars (placeholder.assign lookup value) chars =
        Placeholder.expandChars lookup chars := by
    intro chars hfresh
    refine Placeholder.expandChars_congr fun name hname => ?_
    exact Function.update_of_ne (ne_of_mem_of_not_mem hname hfresh) _ _
  have hplain : ∀ value? rest,
      Placeholder.expandChars value? ('"' :: rest) = '"' :: Placeholder.expandChars value? rest :=
    fun value? rest => Placeholder.expandChars_of_read?_eq_none rfl
  have hname : placeholder.name.toList ≠ [] := by
    simpa using placeholder.name_ne_empty
  have hreplaced : Placeholder.replacement (placeholder.assign lookup value)
      placeholder.name.toList = value.toList := by
    simp [Placeholder.replacement, assign]
  unfold Placeholder.expand text document quoted
  rw [String.toList_ofList, Placeholder.expandChars_append _ placeholder.closed, hplain,
    Placeholder.expandChars_written _ hname placeholder.brace_notMem, hplain, hreplaced,
    hsame _ placeholder.notMem_before, hsame _ placeholder.notMem_after]

/-- A value that stands for itself in double quotes and is not the name of a stage. -/
structure IsProbe (value : String) : Prop where
  plain : ∀ c ∈ value.toList, StandsForItself c
  notStage : Stage.named? value = none

/-- The option is written as the placeholder: the quoted placeholder is a value of the document, the
configuration can be loaded, and exchanging one value of the variable for another exchanges the text
of the option and nothing else.

The place of an option is told by what is read from it, because there are many ways to write one:
under a header, with a dotted key, in braces, by its position in brackets.  For the first of them,
`StandsUnderKey.writes` says it by the header and the key. -/
structure Writes (option : TextOption) (config : Config) (first second : String) : Prop where
  value : placeholder.StandsAsValue lookup
  ne : first ≠ second
  probe_first : IsProbe first
  probe_second : IsProbe second
  loads_first : Config.ofText (placeholder.assign lookup first) placeholder.text = .ok config
  loads_second : Config.ofText (placeholder.assign lookup second) placeholder.text =
    .ok (option.put second config)
  reads_first : option.read? config = some first

variable {placeholder lookup}

theorem ofText_eq_ok {value : String} {config : Config} :
    Config.ofText (placeholder.assign lookup value) placeholder.text = .ok config ↔
      ∃ root, Toml.parse (.ofList (placeholder.document lookup value.toList)) = .ok root ∧
        Config.decode root = .ok config := by
  rw [Config.ofText, placeholder.expand_text, Config.ofDocument]
  cases Toml.parse (.ofList (placeholder.document lookup value.toList)) with
  | error fault => simp
  | ok root => cases hdecode : Config.decode root <;> simp [hdecode]

/-- With another plain value the configuration is alike except for that value. -/
theorem StandsAsValue.loads (hstands : placeholder.StandsAsValue lookup) {old value : String}
    (hold : IsProbe old) (hvalue : ∀ c ∈ value.toList, StandsForItself c) {config : Config}
    (hload : Config.ofText (placeholder.assign lookup old) placeholder.text = .ok config) :
    ∃ loaded, Config.ofText (placeholder.assign lookup value) placeholder.text = .ok loaded ∧
      Config.ExchangedConfig old value config loaded := by
  obtain ⟨root, hroot, hdecode⟩ := ofText_eq_ok.mp hload
  obtain ⟨other, hother, hexchanged⟩ :=
    Toml.parse_of_reaches hstands.reaches hstands.after hold.plain hvalue hroot
  rw [String.ofList_toList, String.ofList_toList] at hexchanged
  obtain ⟨loaded, hloaded, halike⟩ :=
    Config.follows_decode hold.notStage hexchanged config hdecode
  exact ⟨loaded, ofText_eq_ok.mpr ⟨other, hother, hloaded⟩, halike⟩

/-- In the document in which only this placeholder is left as it is, a key right under the header
`[title]` has the quoted placeholder as its value, and nothing else belongs to its string. -/
structure StandsUnderKey (placeholder : QuotedPlaceholder) (lookup : String → Option String)
    (title key : String) : Prop where
  reaches : Toml.KeyReaches
    (quoted (Placeholder.written placeholder.name.toList)
      (Placeholder.expandChars lookup placeholder.after)) title key false
    (dropMark (placeholder.document lookup (Placeholder.written placeholder.name.toList)))
  after : (Placeholder.expandChars lookup placeholder.after).head? ≠ some '"'

theorem StandsUnderKey.standsAsValue {title key : String}
    (hstands : placeholder.StandsUnderKey lookup title key) : placeholder.StandsAsValue lookup :=
  ⟨hstands.reaches.reaches, hstands.after⟩

/-- An option whose key has the placeholder under the header of its section is written as the
placeholder. -/
theorem StandsUnderKey.writes {option : TextOption} (hstep : option.key ≠ "steps")
    (hstands : placeholder.StandsUnderKey lookup option.title option.key) {first second : String}
    (hne : first ≠ second) (hfirst : IsProbe first) (hsecond : IsProbe second) {config : Config}
    (hload : Config.ofText (placeholder.assign lookup first) placeholder.text = .ok config) :
    placeholder.Writes lookup option config first second := by
  obtain ⟨loaded, hloaded, hexchanged⟩ :=
    hstands.standsAsValue.loads hfirst hsecond.plain hload
  obtain ⟨root, hroot, hdecode⟩ := ofText_eq_ok.mp hload
  obtain ⟨other, hother, hredecode⟩ := ofText_eq_ok.mp hloaded
  have hdiffer := Toml.differ_of_parse hstands.reaches hstands.after hfirst.plain hsecond.plain
    hroot hother
  rw [String.ofList_toList, String.ofList_toList] at hdiffer
  obtain ⟨hread, hreread, hrest⟩ := Config.read?_of_differ hstep hdiffer hdecode hredecode
  have hput : loaded = option.put second config := by
    refine Config.eq_of_texts ?_ fun asked => ?_
    · rw [hexchanged.withoutTexts_eq, option.withoutTexts_put]
    by_cases hasked : asked = option
    · rw [hasked, hreread, option.read?_put_self, hread, Option.map_some]
    · rw [hrest asked hasked, option.read?_put_of_ne second config hasked]
  exact ⟨hstands.standsAsValue, hne, hfirst, hsecond, hload, hput ▸ hloaded, hread⟩

/-- An option that is written as a quoted placeholder has exactly the value of the variable, and
nothing else in the configuration depends on that value. -/
theorem quoted_value_is_taken_as_it_is {option : TextOption} {config : Config}
    {first second : String} (hwrites : placeholder.Writes lookup option config first second)
    {value : String} (hvalue : ∀ c ∈ value.toList, StandsForItself c) :
    ∃ loaded, Config.ofText (placeholder.assign lookup value) placeholder.text = .ok loaded ∧
      option.read? loaded = some value ∧
      (∀ other, other ≠ option → other.read? loaded = other.read? config) ∧
      loaded.withoutTexts = config.withoutTexts := by
  obtain ⟨loaded, hloaded, hfirst⟩ :=
    hwrites.value.loads hwrites.probe_first hvalue hwrites.loads_first
  obtain ⟨twin, htwin, hsecond⟩ :=
    hwrites.value.loads hwrites.probe_second hvalue hwrites.loads_second
  obtain rfl := Except.ok.inj (hloaded.symm.trans htwin)
  obtain rfl := Config.eq_put_of_exchanged hwrites.ne hfirst hsecond hwrites.reads_first
  refine ⟨_, hloaded, ?_, ?_, option.withoutTexts_put value config⟩
  · rw [option.read?_put_self, hwrites.reads_first, Option.map_some]
  · intro other hother
    exact option.read?_put_of_ne value config hother

/-- The context of kubectl comes from a variable, and its binary is named after it. -/
def kubectlContext : QuotedPlaceholder where
  before := "[kubectl]\ncontext = ".toList
  name := "CONTEXT"
  after := "\nbinary = \"kubectl\"\n".toList
  closed := by decide +kernel
  name_ne_empty := by decide
  brace_notMem := by decide
  notMem_before := by decide +kernel
  notMem_after := by decide +kernel

/-- The text of the example from its placeholder on. -/
def contextPlace : List Char := "\"$\x7bCONTEXT\x7d\"\nbinary = \"kubectl\"\n".toList

theorem kubectlContext_standsUnderKey :
    kubectlContext.StandsUnderKey (fun _ => none) "kubectl" "context" := by
  have hplace : quoted (Placeholder.written kubectlContext.name.toList)
      (Placeholder.expandChars (fun _ => none) kubectlContext.after) = contextPlace := by
    decide +kernel
  have hdocument : dropMark (kubectlContext.document (fun _ => none)
      (Placeholder.written kubectlContext.name.toList)) =
        "[kubectl]\ncontext = ".toList ++ contextPlace := by
    decide +kernel
  have hheader : Toml.ReadsStatement
      (Toml.skipFiller false ("[kubectl]\ncontext = ".toList ++ contextPlace))
      (.header false ["kubectl"]) ("\ncontext = ".toList ++ contextPlace) := ⟨1, by rfl⟩
  have hend : Toml.endOfLine ("\ncontext = ".toList ++ contextPlace) =
      .ok ("context = ".toList ++ contextPlace) := by decide +kernel
  have hplain :
      (Toml.skipFiller false ("context = ".toList ++ contextPlace)).head? ≠ some '[' := by
    decide +kernel
  have hname : Toml.readStatementName (Toml.skipFiller false
      ("context = ".toList ++ contextPlace)) = .ok (["context"], contextPlace) := by decide +kernel
  refine ⟨?_, by decide +kernel⟩
  rw [hdocument, hplace]
  exact .later hheader hend (.here hplain hname)

theorem kubectlContext_writes :
    kubectlContext.Writes (fun _ => none) .context
      { kubectl? := some { context? := some "a", binary? := some "kubectl" } } "a" "b" := by
  have hprobe : IsProbe "a" := ⟨Toml.standsForItself_of_all (by decide +kernel), by decide +kernel⟩
  have hother : IsProbe "b" := ⟨Toml.standsForItself_of_all (by decide +kernel), by decide +kernel⟩
  exact StandsUnderKey.writes (by decide) kubectlContext_standsUnderKey (by decide) hprobe hother
    (by decide +kernel)

theorem kubectlContext_with_brackets :
    ∃ loaded, Config.ofText
        (kubectlContext.assign (fun _ => none) "[admin] = {x}, #1") kubectlContext.text =
          .ok loaded ∧
      TextOption.context.read? loaded = some "[admin] = {x}, #1" ∧ loaded.verify? = none := by
  have hvalue : ∀ c ∈ "[admin] = {x}, #1".toList, StandsForItself c :=
    Toml.standsForItself_of_all (by decide +kernel)
  obtain ⟨loaded, hloaded, hread, -, hrest⟩ :=
    quoted_value_is_taken_as_it_is kubectlContext_writes hvalue
  exact ⟨loaded, hloaded, hread, congrArg Config.verify? hrest⟩

/-- Values whose characters do not all stand for themselves: one ends the string and goes on with a
namespace, one leaves the string without an end, one is changed by an escape. -/
theorem kubectlContext_with_syntax :
    Config.ofText (kubectlContext.assign (fun _ => none) "a\"\nnamespace = \"b")
        kubectlContext.text =
      .ok { kubectl? := some {
        binary? := some "kubectl", context? := some "a", namespaceName? := some "b" } } ∧
    Config.ofText (kubectlContext.assign (fun _ => none) "\"") kubectlContext.text =
      .error (Config.unreadable (Toml.Fault.message .endOfText)) ∧
    Config.ofText (kubectlContext.assign (fun _ => none) "C:\\tmp") kubectlContext.text =
      .ok { kubectl? := some { binary? := some "kubectl", context? := some "C:\tmp" } } := by
  refine ⟨?_, ?_, ?_⟩ <;> decide +kernel

theorem not_every_value_is_taken_as_it_is :
    ¬ ∀ value : String, ∃ loaded,
      Config.ofText (kubectlContext.assign (fun _ => none) value) kubectlContext.text =
          .ok loaded ∧
        TextOption.context.read? loaded = some value ∧
        TextOption.namespaceName.read? loaded = none := by
  intro hall
  obtain ⟨loaded, hload, -, hnamespace⟩ := hall "a\"\nnamespace = \"b"
  obtain rfl := Except.ok.inj (hload.symm.trans kubectlContext_with_syntax.1)
  exact absurd hnamespace (by decide)

end QuotedPlaceholder
end Rollout
