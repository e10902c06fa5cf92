import Mathlib.Data.List.Nodup
import Mathlib.Data.List.TakeWhile
import Mathlib.Data.Option.Basic
import Rollout.CommandLine.Reader

/-!
# Written options

An option is written as its name after two hyphens.  Its value follows in the same argument after an
equals sign, or in an argument of its own, which must not look like an option.  This file proves
that a level on which admissible options are written, each of them once, is read as exactly these
options, in their order.

## Strategy

* **Words.**  `Reads` says that arguments are taken in one by one, whatever comes after them and
  whatever would be said about a stray argument.  So it serves both levels (`Reads.readSubcommand`
  and `Reads.readRoot`); on the first one a word must not be taken for a subcommand, which an option
  never is (`isCommandWord_hyphens`) and a value that is awaited never is either.
* **Pending values.**  After a value of its own the scan still holds the option as pending.  `Holds`
  abstracts from this: it speaks of the options that are given once the pending one is settled.
* **One option.**  `exists_reads_of_writes` reads one written option, and an induction on the
  options gives the level.
-/

namespace Rollout.CommandLine

/-! ## How options are written -/

/-- A text that is taken for a value when it is an argument of its own. -/
def StandsAlone (value : String) : Prop :=
  value = "-" ∨ value.toList.head? ≠ some '-'

instance : DecidablePred StandsAlone := fun value =>
  inferInstanceAs (Decidable (value = "-" ∨ value.toList.head? ≠ some '-'))

/-- The arguments that write an option with its value. -/
inductive Writes : Given → List String → Prop
  | flag (option : CommandOption) (hflag : option.takesValue = false) :
      Writes (option, "") ["--" ++ option.long]
  | joined (option : CommandOption) (value : String) (htakes : option.takesValue = true) :
      Writes (option, value) ["--" ++ (option.long ++ "=" ++ value)]
  | apart (option : CommandOption) (value : String) (htakes : option.takesValue = true)
      (halone : StandsAlone value) : Writes (option, value) ["--" ++ option.long, value]

/-- The arguments that write options one after the other. -/
inductive WritesAll : List Given → List String → Prop
  | nil : WritesAll [] []
  | cons {entry : Given} {words : List String} {entries : List Given} {arguments : List String}
      (hfirst : Writes entry words) (hrest : WritesAll entries arguments) :
      WritesAll (entry :: entries) (words ++ arguments)

/-- An option that can be given on a level where these options are available. -/
structure Admissible (available : List CommandOption) (entry : Given) : Prop where
  mem : entry.1 ∈ available
  ne_help : entry.1 ≠ .help
  ne_version : entry.1 ≠ .version
  accepts : entry.1.accepts entry.2 = true

/-! ## Names -/

section names

theorem notMem_long (option : CommandOption) : '=' ∉ option.long.toList := by
  cases option <;> decide +kernel

theorem toList_long_ne_nil (option : CommandOption) : option.long.toList ≠ [] := by
  cases option <;> decide +kernel

theorem ne_equals_of_notMem {name : List Char} (hname : '=' ∉ name) :
    ∀ c ∈ name, decide (c ≠ '=') = true := by
  intro c hc
  exact decide_eq_true fun heq => hname (heq ▸ hc)

theorem splitEquals_of_notMem {name : List Char} (hname : '=' ∉ name) :
    splitEquals name = (String.ofList name, none) := by
  have hplain := ne_equals_of_notMem hname
  rw [splitEquals, List.takeWhile_eq_self_iff.mpr hplain, List.dropWhile_eq_nil_iff.mpr hplain]
  rfl

/-- A name ends at the first equals sign, and the value may have more of them. -/
theorem splitEquals_append {name : List Char} (hname : '=' ∉ name) (value : List Char) :
    splitEquals (name ++ '=' :: value) = (String.ofList name, some (String.ofList value)) := by
  have hplain := ne_equals_of_notMem hname
  rw [splitEquals, List.takeWhile_append_of_pos hplain, List.dropWhile_append_of_pos hplain]
  simp

/-- Available options are told apart by their names. -/
def Named (available : List CommandOption) : Prop :=
  ∀ option ∈ available, available.find? (·.long = option.long) = some option

theorem named_rootOptions : Named rootOptions := by
  unfold Named
  decide +kernel

theorem named_subcommandOptions (subcommand : Subcommand) :
    Named (subcommandOptions subcommand) := by
  unfold Named
  cases subcommand <;> decide +kernel

theorem toList_hyphens (text : String) :
    ("--" ++ text).toList = '-' :: '-' :: text.toList := by
  rw [String.toList_append]
  rfl

/-- An option is never taken for a subcommand. -/
theorem isCommandWord_hyphens (text : String) : isCommandWord ("--" ++ text) = false := by
  have hwords : ∀ word, isCommandWord word = true → word.toList.head? ≠ some '-' := by
    intro word hword
    rcases Bool.or_eq_true_iff.mp hword with hnamed | hhelp
    · obtain ⟨subcommand, hsubcommand⟩ := Option.isSome_iff_exists.mp hnamed
      have heq : subcommand.word = word := by
        simpa using List.find?_some hsubcommand
      rw [← heq]
      cases subcommand <;> decide +kernel
    · rw [of_decide_eq_true hhelp]
      decide +kernel
  refine Bool.eq_false_iff.mpr fun hword => hwords _ hword ?_
  rw [toList_hyphens]
  rfl

end names

/-! ## Single arguments -/

section arguments

variable {available : List CommandOption} (stray : Scan → UsageFault) {scan : Scan}
  {option : CommandOption}

/-- Two hyphens and a name are read as an option. -/
theorem readArgument_hyphens {text : String} (htext : text.toList ≠ [])
    (htrailing : scan.trailing = false) :
    readArgument available stray ("--" ++ text) scan = readLong available text.toList scan := by
  obtain ⟨c, rest, hchars⟩ := List.exists_cons_of_ne_nil htext
  simp only [readArgument, htrailing, toList_hyphens, hchars, Bool.false_eq_true, if_false]

/-- The name of an option on its own: the option awaits its value, or it has none. -/
theorem readArgument_name (hnamed : Named available) (hmem : option ∈ available)
    (htrailing : scan.trailing = false) :
    readArgument available stray ("--" ++ option.long) scan =
      if option.takesValue then scan.await option else scan.give option "" := by
  rw [readArgument_hyphens stray (toList_long_ne_nil option) htrailing, readLong,
    splitEquals_of_notMem (notMem_long option), String.ofList_toList]
  cases htakes : option.takesValue <;> simp [hnamed option hmem, htakes]

/-- A name with a value after the equals sign. -/
theorem readArgument_joined (hnamed : Named available) (hmem : option ∈ available)
    (htakes : option.takesValue = true) (htrailing : scan.trailing = false) (value : String) :
    readArgument available stray ("--" ++ (option.long ++ "=" ++ value)) scan =
      scan.give option value := by
  have htext : (option.long ++ "=" ++ value).toList =
      option.long.toList ++ '=' :: value.toList := by
    rw [String.toList_append, String.toList_append, List.append_assoc]
    rfl
  have hnonempty : (option.long ++ "=" ++ value).toList ≠ [] := by
    simp [htext]
  rw [readArgument_hyphens stray hnonempty htrailing, htext, readLong,
    splitEquals_append (notMem_long option), String.ofList_toList, String.ofList_toList]
  simp only [hnamed option hmem, htakes]

/-- What is awaited is taken as it is, also when it reads like a subcommand. -/
theorem readArgument_of_standsAlone {value : String} (hvalue : StandsAlone value)
    (htrailing : scan.trailing = false) (hawaiting : scan.isAwaiting = true) :
    readArgument available stray value scan = .ok (scan.supply value) := by
  simp only [readArgument, htrailing, hawaiting, Bool.false_eq_true, if_false, if_true]
  rcases hvalue with rfl | hhead
  · rfl
  · -- every way to read an option begins with a hyphen
    split <;> simp_all

end arguments

/-! ## Reading arguments one by one -/

/-- The arguments are taken in one after the other, which leads from one scan to another.  None of
them is taken for a subcommand. -/
inductive Reads (available : List CommandOption) : Scan → List String → Scan → Prop
  | nil (scan : Scan) : Reads available scan [] scan
  | cons {scan next last : Scan} {argument : String} {arguments : List String}
      (hargument : ∀ stray, readArgument available stray argument scan = .ok next)
      (hplain : scan.isAwaiting = true ∨ isCommandWord argument = false)
      (hrest : Reads available next arguments last) :
      Reads available scan (argument :: arguments) last

namespace Reads

variable {available : List CommandOption} {scan middle last : Scan} {first second : List String}

theorem append (hfirst : Reads available scan first middle)
    (hsecond : Reads available middle second last) :
    Reads available scan (first ++ second) last := by
  induction hfirst with
  | nil scan => exact hsecond
  | cons hargument hplain _ ih => exact .cons hargument hplain (ih hsecond)

/-- After the subcommand arguments are only taken in. -/
theorem readSubcommand {subcommand : Subcommand}
    (hreads : Reads (subcommandOptions subcommand) scan first last) (rest : List String) :
    CommandLine.readSubcommand subcommand (first ++ rest) scan =
      CommandLine.readSubcommand subcommand rest last := by
  induction hreads with
  | nil scan => rfl
  | cons hargument _ _ ih =>
      rw [List.cons_append, CommandLine.readSubcommand, hargument]
      exact ih

/-- Before the subcommand they are looked at first, and none of them is one. -/
theorem readRoot (hreads : Reads rootOptions scan first last) (rest : List String) :
    CommandLine.readRoot (first ++ rest) scan = CommandLine.readRoot rest last := by
  induction hreads with
  | nil scan => rfl
  | @cons scan next last argument arguments hargument hplain _ ih =>
      have hnone : ((if scan.trailing || scan.isAwaiting then none else some argument).bind
          Subcommand.named?) = none ∧
          (if scan.trailing || scan.isAwaiting then none else some argument) ≠ some helpWord := by
        split
        · exact ⟨rfl, by simp⟩
        · next hneither =>
            have hword : isCommandWord argument = false := by
              refine hplain.resolve_left fun hawaiting => hneither ?_
              rw [hawaiting, Bool.or_true]
            simpa [isCommandWord] using hword
      rw [List.cons_append, CommandLine.readRoot, hargument]
      simp only [hnone.1, hnone.2, if_false]
      exact ih

end Reads

/-! ## One option -/

/-- The options have been given so far.  The last one may still be pending, but not without its
value. -/
structure Holds (given : List Given) (scan : Scan) : Prop where
  trailing_eq : scan.trailing = false
  isAwaiting_eq : scan.isAwaiting = false
  settle_eq : scan.settle = .ok { given := given }

theorem holds_nil : Holds [] {} := ⟨rfl, rfl, rfl⟩

theorem holds_given (given : List Given) : Holds given { given := given } := ⟨rfl, rfl, rfl⟩

section holds

variable {available : List CommandOption} {given : List Given} {option : CommandOption}
  {value : String} {scan : Scan}

/-- An admissible option is taken in when it has not been given before. -/
theorem record_of_admissible (hadmissible : Admissible available (option, value))
    (hfresh : option ∉ given.map Prod.fst) :
    Scan.record option value { given := given } =
      .ok { given := given ++ [(option, value)] } := by
  rw [Scan.record, if_neg hfresh, if_neg hadmissible.ne_help, if_neg hadmissible.ne_version,
    if_pos hadmissible.accepts]

theorem give_of_admissible (hholds : Holds given scan)
    (hadmissible : Admissible available (option, value)) (hfresh : option ∉ given.map Prod.fst) :
    scan.give option value = .ok { given := given ++ [(option, value)] } := by
  rw [Scan.give, hholds.settle_eq]
  exact record_of_admissible hadmissible hfresh

/-- An option with a value of its own is pending until the next argument is looked at. -/
theorem holds_supply (hadmissible : Admissible available (option, value))
    (hfresh : option ∉ given.map Prod.fst) :
    Holds (given ++ [(option, value)])
      (Scan.supply value { given := given, pending := some (option, none) }) :=
  ⟨rfl, rfl, record_of_admissible hadmissible hfresh⟩

/-- A written option is given after those that have been given before. -/
theorem exists_reads_of_writes {words : List String} (hnamed : Named available)
    (hwrites : Writes (option, value) words) (hholds : Holds given scan)
    (hadmissible : Admissible available (option, value))
    (hfresh : option ∉ given.map Prod.fst) :
    ∃ last, Reads available scan words last ∧ Holds (given ++ [(option, value)]) last := by
  have hgive := give_of_admissible hholds hadmissible hfresh
  cases hwrites with
  | flag option hflag =>
      refine ⟨_, .cons (fun stray => ?_) (.inr (isCommandWord_hyphens _)) (.nil _), holds_given _⟩
      rw [readArgument_name stray hnamed hadmissible.mem hholds.trailing_eq, hflag]
      exact hgive
  | joined option value htakes =>
      refine ⟨_, .cons (fun stray => ?_) (.inr (isCommandWord_hyphens _)) (.nil _), holds_given _⟩
      rw [readArgument_joined stray hnamed hadmissible.mem htakes hholds.trailing_eq]
      exact hgive
  | apart option value htakes halone =>
      have hawait : scan.await option = .ok { given := given, pending := some (option, none) } := by
        rw [Scan.await, hholds.settle_eq]
        rfl
      refine ⟨_, .cons (fun stray => ?_) (.inr (isCommandWord_hyphens _))
        (.cons (fun stray => readArgument_of_standsAlone stray halone rfl rfl) (.inl rfl) (.nil _)),
        holds_supply hadmissible hfresh⟩
      rw [readArgument_name stray hnamed hadmissible.mem hholds.trailing_eq, htakes]
      exact hawait

end holds

/-! ## A level -/

section levels

variable {available : List CommandOption} {entries : List Given} {arguments : List String}

theorem exists_reads_of_writesAll (hnamed : Named available) {given : List Given} {scan : Scan}
    (hwrites : WritesAll entries arguments) (hholds : Holds given scan)
    (hadmissible : ∀ entry ∈ entries, Admissible available entry)
    (honce : ((given ++ entries).map Prod.fst).Nodup) :
    ∃ last, Reads available scan arguments last ∧ Holds (given ++ entries) last := by
  induction hwrites generalizing given scan with
  | nil => exact ⟨scan, .nil scan, by rwa [List.append_nil]⟩
  | @cons entry words entries arguments hfirst _ ih =>
      obtain ⟨option, value⟩ := entry
      obtain ⟨hentry, hentries⟩ := List.forall_mem_cons.mp hadmissible
      have hfresh : option ∉ given.map Prod.fst := by
        rw [List.map_append, List.nodup_append'] at honce
        exact fun hmem => honce.2.2 hmem (by simp)
      obtain ⟨middle, hmiddle, hgiven⟩ :=
        exists_reads_of_writes hnamed hfirst hholds hentry hfresh
      rw [List.append_cons] at honce ⊢
      obtain ⟨last, hlast, hall⟩ := ih hgiven hentries honce
      exact ⟨last, hmiddle.append hlast, hall⟩

/-- Written options after a subcommand are read as they are. -/
theorem readSubcommand_of_writesAll {subcommand : Subcommand}
    (hwrites : WritesAll entries arguments)
    (hadmissible : ∀ entry ∈ entries, Admissible (subcommandOptions subcommand) entry)
    (honce : (entries.map Prod.fst).Nodup) :
    readSubcommand subcommand arguments {} = .ok entries := by
  obtain ⟨last, hreads, hholds⟩ := exists_reads_of_writesAll (named_subcommandOptions subcommand)
    hwrites holds_nil hadmissible honce
  have hread := hreads.readSubcommand []
  rw [List.append_nil] at hread
  rw [hread, readSubcommand, hholds.settle_eq]
  rfl

/-- Written options before a subcommand are read as they are, and the subcommand is recognized. -/
theorem readRoot_of_writesAll {subcommand : Subcommand} {back : List String} {after : List Given}
    (hwrites : WritesAll entries arguments)
    (hadmissible : ∀ entry ∈ entries, Admissible rootOptions entry)
    (honce : (entries.map Prod.fst).Nodup)
    (hback : readSubcommand subcommand back {} = .ok after) :
    readRoot (arguments ++ subcommand.word :: back) {} = .ok ⟨entries, subcommand, after⟩ := by
  obtain ⟨last, hreads, hholds⟩ :=
    exists_reads_of_writesAll named_rootOptions hwrites holds_nil hadmissible honce
  rw [hreads.readRoot, readRoot, hholds.trailing_eq, hholds.isAwaiting_eq]
  simp only [Bool.or_false, Bool.false_eq_true, if_false, Option.bind_some,
    Subcommand.named?_word, hback]
  rw [hholds.settle_eq]
  rfl

end levels

end Rollout.CommandLine
