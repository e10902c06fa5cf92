import Mathlib.Data.List.Nodup
import Rollout.Proofs.CommandLine.Spelling
import Rollout.Proofs.Text.Decimal

/-!
# Command lines read back

Whatever can be asked for on a command line can be written, in any order and with the shared options
on either side of the subcommand, and what is read is what was asked for.  A shared option may be
given on both sides, and then the value after the subcommand counts.

## Strategy

A command line is looked at as the values of its options (`CommandLine.value?`), and so are the two
levels that a list of arguments is read as (`Levels.value?`).  Levels that agree with a command line
in every option make up this command line (`commandLine_of_value?`), so neither the order nor the
place of an option matters.  That the levels are read as they are written is known from the levels
one by one; what is left is that the options of a command line are admissible on their level
(`admissible_of_value?`), and that printed numbers are read again.
-/

namespace Rollout

/-! ## The options of a command line -/

/-- The value with which a flag is given. -/
def flagValue (isGiven : Bool) : Option String :=
  if isGiven then some "" else none

/-- The value with which an option of a run is given. -/
def RunOptions.value? (options : RunOptions) : CommandOption → Option String
  | .dryRun => flagValue options.dryRun
  | .report => options.report?
  | .executionId => options.executionId?
  | _ => none

/-- Numbers are given in decimal digits. -/
def VerifyOptions.value? (options : VerifyOptions) : CommandOption → Option String
  | .strict => flagValue options.strict
  | .waitAttempts => options.waitAttempts?.map fun attempts => toString attempts.toNat
  | .waitInterval => options.waitInterval?.map fun interval => toString interval.toNat
  | _ => none

namespace Command

/-- The subcommand that a command belongs to. -/
def subcommand : Command → Subcommand
  | install _ => .install
  | verify _ => .verify
  | uninstall _ => .uninstall
  | plan _ => .plan

/-- The value of an option that only the subcommand has. -/
def value? : Command → CommandOption → Option String
  | install options, option | uninstall options, option => options.value? option
  | verify options, option => options.value? option
  | plan reverse, .reverse => flagValue reverse
  | plan _, _ => none

end Command

namespace CommandLine

/-- The value with which a command line gives an option, if it gives it. -/
def value? (line : CommandLine) : CommandOption → Option String
  | .config => line.config?
  | .manifestDirectory => line.manifestDirectory?
  | .kubectl => line.kubectl?
  | .context => line.context?
  | .kubeconfig => line.kubeconfig?
  | .namespaceName => line.namespaceName?
  | .verbose => flagValue line.verbose
  | .jsonLogs => flagValue line.jsonLogs
  | option => line.command.value? option

/-- The options that there are for the subcommand of a command line. -/
def options (line : CommandLine) : List CommandOption :=
  CommandOption.shared ++ line.command.subcommand.ownOptions

/-- The options that a command line gives, with their values. -/
def given (line : CommandLine) : List Given :=
  line.options.filterMap fun option => (line.value? option).map fun value => (option, value)

end CommandLine

/-! ## Options and their values fit together -/

@[simp]
theorem isSome_flagValue (isGiven : Bool) : (flagValue isGiven).isSome = isGiven := by
  cases isGiven <;> rfl

theorem eq_empty_of_flagValue {isGiven : Bool} {value : String}
    (hvalue : flagValue isGiven = some value) : value = "" := by
  cases isGiven with
  | true => exact (Option.some.inj hvalue).symm
  | false => cases hvalue

/-- The option is one of the available ones, and the value is one that it can be given. -/
structure Suits (available : List CommandOption) (option : CommandOption) (value : String) :
    Prop where
  mem : option ∈ available
  eq_empty : option.takesValue = false → value = ""
  accepts : option.accepts value = true

section suits

variable {option : CommandOption} {value : String}

theorem accepts_waitAttempts (attempts : UInt32) :
    CommandOption.accepts .waitAttempts (toString attempts.toNat) = true := by
  -- the bound stays a variable, for the kernel would compute with the number itself
  have hbelow : ∀ size : Nat, attempts.toNat < size →
      (Text.signed? (toString attempts.toNat)).any (fun number =>
        0 ≤ number && number < Int.ofNat size) = true := by
    intro size hsize
    rw [Text.signed?_toString, Option.any_some, Bool.and_eq_true, decide_eq_true_iff,
      decide_eq_true_iff]
    exact ⟨Int.natCast_nonneg _, Int.ofNat_lt.mpr hsize⟩
  rw [CommandOption.accepts]
  exact hbelow UInt32.size attempts.toNat_lt_size

theorem accepts_waitInterval (interval : UInt64) :
    CommandOption.accepts .waitInterval (toString interval.toNat) = true := by
  have hbound := interval.toNat_lt_size
  simpa only [CommandOption.accepts, Text.unsigned?_toString, Option.any_some,
    decide_eq_true_eq] using hbound

theorem RunOptions.suits_of_value? {options : RunOptions}
    (hvalue : options.value? option = some value) :
    Suits [.dryRun, .report, .executionId] option value := by
  cases option with
  | dryRun => exact ⟨by decide, fun _ => eq_empty_of_flagValue hvalue, rfl⟩
  | report | executionId => exact ⟨by decide, by simp [CommandOption.takesValue], rfl⟩
  | _ => cases hvalue

theorem VerifyOptions.suits_of_value? {options : VerifyOptions}
    (hvalue : options.value? option = some value) :
    Suits [.strict, .waitAttempts, .waitInterval] option value := by
  cases option with
  | strict => exact ⟨by decide, fun _ => eq_empty_of_flagValue hvalue, rfl⟩
  | waitAttempts =>
      obtain ⟨attempts, -, rfl⟩ := Option.map_eq_some_iff.mp hvalue
      exact ⟨by decide, by simp [CommandOption.takesValue], accepts_waitAttempts attempts⟩
  | waitInterval =>
      obtain ⟨interval, -, rfl⟩ := Option.map_eq_some_iff.mp hvalue
      exact ⟨by decide, by simp [CommandOption.takesValue], accepts_waitInterval interval⟩
  | _ => cases hvalue

theorem Command.suits_of_value? {command : Command} (hvalue : command.value? option = some value) :
    Suits command.subcommand.ownOptions option value := by
  cases command with
  | install options | uninstall options => exact RunOptions.suits_of_value? hvalue
  | verify options => exact VerifyOptions.suits_of_value? hvalue
  | plan reverse =>
      cases option with
      | reverse => exact ⟨List.mem_singleton_self _, fun _ => eq_empty_of_flagValue hvalue, rfl⟩
      | _ => cases hvalue

/-- Shared options take any value. -/
theorem accepts_of_mem_shared (hshared : option ∈ CommandOption.shared) :
    option.accepts value = true := by
  cases option <;> first | rfl | exact absurd hshared (by decide)

namespace CommandLine

variable {line : CommandLine}

/-- An option that is not shared belongs to the subcommand. -/
theorem value?_of_not_shared (hoption : option ∉ CommandOption.shared) :
    line.value? option = line.command.value? option := by
  cases option <;> first | rfl | exact absurd (by decide) hoption

theorem suits_of_value? (hvalue : line.value? option = some value) :
    Suits line.options option value := by
  by_cases hshared : option ∈ CommandOption.shared
  · refine ⟨List.mem_append_left _ hshared, fun hflag => ?_, accepts_of_mem_shared hshared⟩
    cases option with
    | verbose | jsonLogs => exact eq_empty_of_flagValue hvalue
    | _ => first | exact absurd hshared (by decide) | cases hflag
  · rw [value?_of_not_shared hshared] at hvalue
    obtain ⟨hmem, hempty, haccepts⟩ := Command.suits_of_value? hvalue
    exact ⟨List.mem_append_right _ hmem, hempty, haccepts⟩

theorem mem_given_iff : (option, value) ∈ line.given ↔ line.value? option = some value := by
  simp only [given, List.mem_filterMap, Option.map_eq_some_iff, Prod.mk.injEq]
  constructor
  · rintro ⟨found, -, text, hvalue, rfl, rfl⟩
    exact hvalue
  · intro hvalue
    exact ⟨option, (suits_of_value? hvalue).mem, value, hvalue, rfl, rfl⟩

theorem map_fst_given (line : CommandLine) :
    line.given.map Prod.fst = line.options.filter fun option => (line.value? option).isSome := by
  rw [given, List.map_filterMap, ← List.filterMap_eq_filter]
  congr
  funext option
  cases hvalue : line.value? option <;> simp [Option.guard, hvalue]

/-- Each option is given once. -/
theorem nodup_given (line : CommandLine) : (line.given.map Prod.fst).Nodup := by
  have hoptions : line.options.Nodup := by
    rw [options]
    cases line.command.subcommand <;> decide
  rw [map_fst_given]
  exact hoptions.filter _

end CommandLine

end suits

/-! ## Levels that make up a command line -/

namespace CommandLine

/-- In a list that gives each option once, an option is looked up by its entry. -/
theorem lookup_eq_some_iff_mem {entries : List Given} (honce : (entries.map Prod.fst).Nodup)
    {option : CommandOption} {value : String} :
    entries.lookup option = some value ↔ (option, value) ∈ entries := by
  constructor
  · intro hlookup
    obtain ⟨before, after, rfl, -⟩ := List.lookup_eq_some_iff.mp hlookup
    simp
  · intro hmem
    obtain ⟨before, after, rfl⟩ := List.append_of_mem hmem
    refine List.lookup_eq_some_iff.mpr ⟨before, after, rfl, fun entry hentry => ?_⟩
    rw [List.map_append, List.nodup_append'] at honce
    have hne : option ≠ entry.1 := by
      rintro rfl
      exact honce.2.2 (List.mem_map_of_mem hentry) (by simp)
    exact bne_iff_ne.mpr hne

/-- An option is given when it has a value. -/
theorem Levels.isGiven_eq (levels : Levels) (option : CommandOption) :
    levels.isGiven option = (levels.value? option).isSome := by
  have hlevel : ∀ entries : List Given,
      (entries.lookup option).isSome = true ↔ option ∈ entries.map Prod.fst := by
    intro entries
    simp only [List.lookup_isSome_iff, beq_iff_eq, List.mem_map, eq_comm (a := option)]
  rw [Bool.eq_iff_iff, Levels.isGiven, Levels.value?, decide_eq_true_iff, List.map_append,
    List.mem_append, Option.isSome_or, Bool.or_eq_true, hlevel, hlevel, or_comm]

theorem readBack_waitAttempts (attempts? : Option UInt32) :
    ((attempts?.map fun attempts => toString attempts.toNat).bind Text.signed?).map
      (fun number => UInt32.ofNat number.toNat) = attempts? := by
  cases attempts? with
  | none => rfl
  | some attempts =>
      rw [Option.map_some, Option.bind_some, Text.signed?_toString, Option.map_some]
      exact congrArg some UInt32.ofNat_toNat

theorem readBack_waitInterval (interval? : Option UInt64) :
    ((interval?.map fun interval => toString interval.toNat).bind Text.unsigned?).map
      UInt64.ofNat = interval? := by
  cases interval? with
  | none => rfl
  | some interval =>
      rw [Option.map_some, Option.bind_some, Text.unsigned?_toString, Option.map_some]
      exact congrArg some UInt64.ofNat_toNat

/-- Only the values of the options count. -/
theorem commandLine_of_value? {line : CommandLine} {levels : Levels}
    (hsubcommand : levels.subcommand = line.command.subcommand)
    (hvalues : ∀ option, levels.value? option = line.value? option) :
    levels.commandLine = line := by
  have hcommand : levels.command = line.command := by
    rw [Levels.command, hsubcommand]
    simp only [Levels.isGiven_eq, hvalues, value?]
    cases line.command with
    | install options | uninstall options =>
        simp only [Command.subcommand, Command.value?, RunOptions.value?, isSome_flagValue]
    | verify options =>
        simp only [Command.subcommand, Command.value?, VerifyOptions.value?, isSome_flagValue,
          readBack_waitAttempts, readBack_waitInterval]
    | plan reverse => simp only [Command.subcommand, Command.value?, isSome_flagValue]
  rw [Levels.commandLine, hcommand]
  simp only [Levels.isGiven_eq, hvalues, value?, isSome_flagValue]

/-! ## Reading what was written -/

section read

variable {before after : List Given} {front back : List String}

theorem admissible_of_value? {line : CommandLine} {entry : Given}
    (hvalue : line.value? entry.1 = some entry.2) :
    Admissible (subcommandOptions line.command.subcommand) entry := by
  have hsuits := suits_of_value? hvalue
  have hordinary : ∀ subcommand : Subcommand,
      ∀ option ∈ CommandOption.shared ++ subcommand.ownOptions,
        option ≠ .help ∧ option ≠ .version := by
    intro subcommand
    cases subcommand <;> decide
  obtain ⟨hhelp, hversion⟩ := hordinary _ _ hsuits.mem
  exact ⟨List.mem_append_left _ hsuits.mem, hhelp, hversion, hsuits.accepts⟩

theorem admissible_of_mem_shared {entry : Given} (hshared : entry.1 ∈ CommandOption.shared) :
    Admissible rootOptions entry := by
  have hordinary : ∀ option ∈ CommandOption.shared, option ≠ .help ∧ option ≠ .version := by
    decide
  obtain ⟨hhelp, hversion⟩ := hordinary _ hshared
  exact ⟨List.mem_append_left _ hshared, hhelp, hversion, accepts_of_mem_shared hshared⟩

/-- Options that are written on the two levels are read as these levels. -/
theorem read_of_writesAll {subcommand : Subcommand} (hfront : WritesAll before front)
    (hback : WritesAll after back) (hshared : ∀ entry ∈ before, entry.1 ∈ CommandOption.shared)
    (hadmissible : ∀ entry ∈ after, Admissible (subcommandOptions subcommand) entry)
    (hbefore : (before.map Prod.fst).Nodup) (hafter : (after.map Prod.fst).Nodup) :
    read (front ++ subcommand.word :: back) =
      .ok (Levels.commandLine ⟨before, subcommand, after⟩) := by
  have hread := readSubcommand_of_writesAll hback hadmissible hafter
  have hroot := readRoot_of_writesAll hfront
    (fun entry hentry => admissible_of_mem_shared (hshared entry hentry)) hbefore hread
  rw [read, hroot]
  rfl

/-- The options of a command line can be written in any order, and shared ones on either side of the
subcommand. -/
theorem read_of_perm {line : CommandLine} (hgiven : (before ++ after).Perm line.given)
    (hshared : ∀ entry ∈ before, entry.1 ∈ CommandOption.shared)
    (hfront : WritesAll before front) (hback : WritesAll after back) :
    read (front ++ line.command.subcommand.word :: back) = .ok line := by
  have hperm : (after ++ before).Perm line.given := List.perm_append_comm.trans hgiven
  have honce : ((after ++ before).map Prod.fst).Nodup :=
    (hperm.map Prod.fst).nodup_iff.mpr line.nodup_given
  have hlevels := honce
  rw [List.map_append, List.nodup_append'] at hlevels
  have hvalues : ∀ option, Levels.value? option ⟨before, line.command.subcommand, after⟩ =
      line.value? option := by
    intro option
    ext value
    rw [Levels.value?, ← List.lookup_append, lookup_eq_some_iff_mem honce, hperm.mem_iff,
      mem_given_iff]
  have hadmissible : ∀ entry ∈ after,
      Admissible (subcommandOptions line.command.subcommand) entry := by
    intro entry hentry
    have hmem : entry ∈ line.given := hperm.mem_iff.mp (List.mem_append_left _ hentry)
    exact admissible_of_value? (mem_given_iff.mp hmem)
  rw [read_of_writesAll hfront hback hshared hadmissible hlevels.2.1 hlevels.1,
    commandLine_of_value? rfl hvalues]

theorem exists_writesAll {entries : List Given}
    (hflags : ∀ entry ∈ entries, entry.1.takesValue = false → entry.2 = "") :
    ∃ arguments, WritesAll entries arguments := by
  induction entries with
  | nil => exact ⟨[], .nil⟩
  | cons entry entries ih =>
      obtain ⟨option, value⟩ := entry
      obtain ⟨hflag, hrest⟩ := List.forall_mem_cons.mp hflags
      obtain ⟨arguments, hall⟩ := ih hrest
      cases htakes : option.takesValue with
      | true => exact ⟨_, .cons (.joined option value htakes) hall⟩
      | false =>
          obtain rfl : value = "" := hflag htakes
          exact ⟨_, .cons (.flag option htakes) hall⟩

/-- **Every command line can be written and is read back.**

* The options that a command line gives can all be written.
* However each of them is written, in whatever order, and wherever the shared ones stand, before the
  subcommand or after it, the arguments are read as this command line and no other.
* When a shared option with a value is given on both sides of the subcommand, the value after it is
  read; when it is given on one side, the value there. -/
theorem written_command_lines_read_back :
    (∀ line : CommandLine, ∃ arguments, WritesAll line.given arguments) ∧
    (∀ (line : CommandLine) (before after : List Given) (front back : List String),
      (before ++ after).Perm line.given →
      (∀ entry ∈ before, entry.1 ∈ CommandOption.shared) →
      WritesAll before front → WritesAll after back →
      read (front ++ line.command.subcommand.word :: back) = .ok line) ∧
    ∀ (subcommand : Subcommand) (before after : List Given) (front back : List String),
      (∀ entry ∈ before, entry.1 ∈ CommandOption.shared) →
      (∀ entry ∈ after, Admissible (subcommandOptions subcommand) entry) →
      (before.map Prod.fst).Nodup → (after.map Prod.fst).Nodup →
      WritesAll before front → WritesAll after back →
      ∃ line, read (front ++ subcommand.word :: back) = .ok line ∧
        line.command.subcommand = subcommand ∧
        ∀ option ∈ CommandOption.shared, option.takesValue = true →
          line.value? option = (after.lookup option).or (before.lookup option) := by
  refine ⟨?_, ?_, ?_⟩
  · intro line
    refine exists_writesAll fun entry hentry hflag => ?_
    exact (suits_of_value? (mem_given_iff.mp hentry)).eq_empty hflag
  · intro line before after front back hgiven hshared hfront hback
    exact read_of_perm hgiven hshared hfront hback
  · intro subcommand before after front back hshared hadmissible hbefore hafter hfront hback
    refine ⟨_, read_of_writesAll hfront hback hshared hadmissible hbefore hafter, ?_, ?_⟩
    · cases subcommand <;> rfl
    · intro option hoption htakes
      cases option with
      | config | manifestDirectory | kubectl | context | kubeconfig | namespaceName => rfl
      | verbose | jsonLogs => cases htakes
      | _ => exact absurd hoption (by decide)

end read

/-! ## Values that do not look like values -/

/-- A command line with a subcommand, hyphens and the largest numbers among its values. -/
def confusingLine : CommandLine where
  kubectl? := some "--=-"
  context? := some "verify"
  namespaceName? := some "-"
  verbose := true
  command := .verify {
    strict := true
    waitAttempts? := some 4294967295
    waitInterval? := some 18446744073709551615 }

/-- It is read back from one of its written forms.  On another command line the namespace is given
on both sides of the subcommand, and the later one counts. -/
theorem confusingLine_reads_back :
    read ["--context", "verify", "--kubectl=--=-", "verify", "--wait-attempts", "4294967295",
        "--strict", "--namespace", "-", "--wait-interval=18446744073709551615", "--verbose"] =
        .ok confusingLine ∧
      ∃ line, read ["--namespace=plan", "plan", "--namespace", "-"] = .ok line ∧
        line.namespaceName? = some "-" := by
  obtain ⟨-, hreads, hoverrides⟩ := written_command_lines_read_back
  constructor
  · have hfront : WritesAll [(.context, "verify"), (.kubectl, "--=-")]
        ["--context", "verify", "--kubectl=--=-"] :=
      .cons (.apart .context "verify" rfl (by decide)) <|
        .cons (.joined .kubectl "--=-" rfl) .nil
    have hback : WritesAll [(.waitAttempts, "4294967295"), (.strict, ""), (.namespaceName, "-"),
          (.waitInterval, "18446744073709551615"), (.verbose, "")]
        ["--wait-attempts", "4294967295", "--strict", "--namespace", "-",
          "--wait-interval=18446744073709551615", "--verbose"] :=
      .cons (.apart .waitAttempts "4294967295" rfl (by decide)) <|
        .cons (.flag .strict rfl) <|
        .cons (.apart .namespaceName "-" rfl (by decide)) <|
        .cons (.joined .waitInterval "18446744073709551615" rfl) <|
        .cons (.flag .verbose rfl) .nil
    exact hreads confusingLine _ _ _ _ (by decide +kernel) (by decide) hfront hback
  · have hadmissible : ∀ entry ∈ [((.namespaceName, "-") : Given)],
        Admissible (subcommandOptions .plan) entry := by
      intro entry hentry
      obtain rfl := List.mem_singleton.mp hentry
      exact ⟨by decide, by decide, by decide, rfl⟩
    have hfront : WritesAll [(.namespaceName, "plan")] ["--namespace=plan"] :=
      .cons (.joined .namespaceName "plan" rfl) .nil
    have hback : WritesAll [(.namespaceName, "-")] ["--namespace", "-"] :=
      .cons (.apart .namespaceName "-" rfl (by decide)) .nil
    obtain ⟨line, hread, -, hvalues⟩ := hoverrides .plan _ _ _ _ (by decide) hadmissible
      (by decide) (by decide) hfront hback
    exact ⟨line, hread, hvalues .namespaceName (by decide) rfl⟩

end CommandLine
end Rollout
