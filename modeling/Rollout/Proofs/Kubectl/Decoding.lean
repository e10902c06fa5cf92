import Mathlib.Data.String.Basic
import Rollout.Kubectl.Arguments

/-!
# Reading kubectl arguments back

The arguments of a call say all that they were made from: the options that are given, and what the
call is for.  Values may be any texts, also ones that read like an option or a command.

## Strategy

Arguments are read from the left.  Options come in pairs, so a value is never mistaken for the name
of an option, and the command is the first word in the place of such a name that is none
(`splitFlags_append`).  What is left has one of three shapes (`purpose?_command`).  That two calls
never have the same arguments follows from reading them back.
-/

namespace Rollout.Kubectl

/-! ## The reader -/

/-- What a call of kubectl is for. -/
inductive Purpose
  | manifest (action : Action) (file : Path)
  | get (kind name : String)
  deriving DecidableEq, Repr

/-- What the arguments of a call say. -/
structure Call where
  kubeconfig? : Option String
  context? : Option String
  namespaceName? : Option String
  purpose : Purpose
  deriving DecidableEq, Repr

/-- The names of the options that come before the command. -/
def flagNames : List String := ["--kubeconfig", "--context", "--namespace"]

/-- The options with their values at the beginning of a list of arguments, and what follows them. -/
def splitFlags : List String → List (String × String) × List String
  | name :: value :: rest =>
      if name ∈ flagNames then ((name, value) :: (splitFlags rest).1, (splitFlags rest).2)
      else ([], name :: value :: rest)
  | arguments => ([], arguments)

/-- What a call is for whose arguments after the options are these. -/
def purpose? : List String → Option Purpose
  | [verb, option, file] =>
      if verb = "apply" ∧ option = "-f" then some (.manifest .apply ⟨file⟩) else none
  | [verb, option, file, tolerance] =>
      if verb = "delete" ∧ option = "-f" ∧ tolerance = "--ignore-not-found" then
        some (.manifest .delete ⟨file⟩)
      else none
  | [verb, kind, name, option, format] =>
      if verb = "get" ∧ option = "-o" ∧ format = "json" then some (.get kind name) else none
  | _ => none

/-- Reads the arguments of a call. -/
def readCall? (arguments : List String) : Option Call :=
  let (flags, command) := splitFlags arguments
  (purpose? command).map fun purpose =>
    ⟨flags.lookup "--kubeconfig", flags.lookup "--context", flags.lookup "--namespace", purpose⟩

/-- The words of a text between its spaces. -/
def words (text : String) : List String :=
  (text.split ' ').toList.map (·.copy)

/-! ## Options in front of a command -/

/-- The arguments that options with their values make up. -/
def flagArguments (flags : List (String × String)) : List String :=
  flags.flatMap fun flag => [flag.1, flag.2]

theorem splitFlags_of_head? {command : List String}
    (hcommand : ∀ verb ∈ command.head?, verb ∉ flagNames) :
    splitFlags command = ([], command) := by
  match command with
  | [] => rfl
  | [verb] => rfl
  | verb :: value :: rest => exact if_neg (hcommand verb rfl)

/-- Options are read up to the first word that is in the place of a name and is none. -/
theorem splitFlags_append {flags : List (String × String)} {command : List String}
    (hflags : ∀ flag ∈ flags, flag.1 ∈ flagNames)
    (hcommand : ∀ verb ∈ command.head?, verb ∉ flagNames) :
    splitFlags (flagArguments flags ++ command) = (flags, command) := by
  induction flags with
  | nil => exact splitFlags_of_head? hcommand
  | cons flag flags ih =>
      obtain ⟨hflag, hrest⟩ := List.forall_mem_cons.mp hflags
      change splitFlags (flag.1 :: flag.2 :: (flagArguments flags ++ command)) = _
      rw [splitFlags, if_pos hflag, ih hrest]

namespace Purpose

/-- The arguments after the options. -/
def command : Purpose → List String
  | manifest .apply file => ["apply", "-f", file.text]
  | manifest .delete file => ["delete", "-f", file.text, "--ignore-not-found"]
  | get kind name => ["get", kind, name, "-o", "json"]

theorem head?_command (purpose : Purpose) : ∀ verb ∈ purpose.command.head?, verb ∉ flagNames := by
  intro verb hverb
  match purpose with
  | manifest .apply _ | manifest .delete _ | get _ _ =>
      obtain rfl := Option.some.inj hverb
      decide

theorem purpose?_command (purpose : Purpose) : purpose? purpose.command = some purpose := by
  match purpose with
  | manifest .apply _ | manifest .delete _ | get _ _ => rfl

end Purpose

/-! ## The options of a call -/

namespace Options

variable (options : Options)

/-- An option with its value, if there is one, as a pair. -/
def flagPair (name : String) (value? : Option String) : List (String × String) :=
  value?.toList.map fun value => (name, value)

/-- The options that come before the command, as pairs. -/
def flags (namespaced : Bool) : List (String × String) :=
  flagPair "--kubeconfig" options.kubeconfig? ++ flagPair "--context" options.context? ++
    if namespaced then flagPair "--namespace" options.namespaceName? else []

/-- The namespace in effect: an object outside all namespaces has none. -/
def namespaceFor? (clusterScoped : Bool) : Option String :=
  if clusterScoped then none else options.namespaceName?

theorem flag_eq (name : String) (value? : Option String) :
    flag name value? = flagArguments (flagPair name value?) := by
  cases value? <;> rfl

theorem globalArguments_eq (namespaced : Bool) :
    options.globalArguments namespaced = flagArguments (options.flags namespaced) := by
  cases namespaced <;>
    simp [globalArguments, flag_eq, flagArguments, flags, List.flatMap_append]

theorem mem_flagNames_of_mem_flags {namespaced : Bool} {flag : String × String}
    (hflag : flag ∈ options.flags namespaced) : flag.1 ∈ flagNames := by
  have hpair : ∀ {name value?}, flag ∈ flagPair name value? → flag.1 = name := by
    intro name value? hmem
    obtain ⟨value, -, rfl⟩ := List.mem_map.mp hmem
    rfl
  rw [flags, List.mem_append, List.mem_append] at hflag
  rcases hflag with (hkubeconfig | hcontext) | hnamespace
  · rw [hpair hkubeconfig]
    decide
  · rw [hpair hcontext]
    decide
  · cases namespaced with
    | false => cases hnamespace
    | true =>
        rw [hpair hnamespace]
        decide

theorem lookup_flags (namespaced : Bool) :
    (options.flags namespaced).lookup "--kubeconfig" = options.kubeconfig? ∧
      (options.flags namespaced).lookup "--context" = options.context? ∧
      (options.flags namespaced).lookup "--namespace" = options.namespaceFor? (!namespaced) := by
  obtain ⟨binary, kubeconfig?, context?, namespaceName?⟩ := options
  cases namespaced <;> cases kubeconfig? <;> cases context? <;> cases namespaceName? <;>
    simp [flags, flagPair, namespaceFor?, List.lookup_cons]

/-- An object outside all namespaces is asked for with the same options but for the namespace. -/
theorem flags_false : options.flags false =
    (options.flags true).filter fun flag => flag.1 ≠ "--namespace" := by
  obtain ⟨binary, kubeconfig?, context?, namespaceName?⟩ := options
  cases kubeconfig? <;> cases context? <;> cases namespaceName? <;> simp [flags, flagPair]

/-! ## Reading calls back -/

theorem splitFlags_call (namespaced : Bool) (purpose : Purpose) :
    splitFlags (options.globalArguments namespaced ++ purpose.command) =
      (options.flags namespaced, purpose.command) := by
  rw [globalArguments_eq]
  exact splitFlags_append (fun flag hflag => options.mem_flagNames_of_mem_flags hflag)
    purpose.head?_command

theorem readCall?_call (namespaced : Bool) (purpose : Purpose) :
    readCall? (options.globalArguments namespaced ++ purpose.command) =
      some ⟨options.kubeconfig?, options.context?, options.namespaceFor? (!namespaced),
        purpose⟩ := by
  obtain ⟨hkubeconfig, hcontext, hnamespace⟩ := options.lookup_flags namespaced
  rw [readCall?, splitFlags_call]
  simp only [purpose.purpose?_command, Option.map_some, hkubeconfig, hcontext, hnamespace]

theorem manifestArguments_eq (action : Action) (file : Path) :
    options.manifestArguments action file =
      options.globalArguments true ++ (Purpose.manifest action file).command := by
  cases action <;> simp [manifestArguments, Purpose.command, Action.name, Action.operation,
    Operation.name]

theorem getArguments_eq (kind name : String) (clusterScoped : Bool) :
    options.getArguments kind name clusterScoped =
      options.globalArguments (!clusterScoped) ++ (Purpose.get kind name).command := rfl

theorem readCall?_manifestArguments (action : Action) (file : Path) :
    readCall? (options.manifestArguments action file) =
      some ⟨options.kubeconfig?, options.context?, options.namespaceName?,
        .manifest action file⟩ := by
  rw [manifestArguments_eq, readCall?_call]
  rfl

theorem readCall?_getArguments (kind name : String) (clusterScoped : Bool) :
    readCall? (options.getArguments kind name clusterScoped) =
      some ⟨options.kubeconfig?, options.context?, options.namespaceFor? clusterScoped,
        .get kind name⟩ := by
  rw [getArguments_eq, readCall?_call, Bool.not_not]

/-- Words without spaces are found again in the text that puts one space between them. -/
theorem words_render {action : Action} {file : Path}
    (hspace : ∀ word ∈ options.binary :: options.manifestArguments action file,
      ' ' ∉ word.toList) :
    words (options.render action file) =
      options.binary :: options.manifestArguments action file := by
  have hsplit := String.toList_split_intercalate hspace
  rwa [if_neg (List.cons_ne_nil _ _)] at hsplit

/-- **Arguments of kubectl can be read in one way only.**

* The arguments of a call give back the options that are in effect and what the call is for.  So two
  calls have the same arguments only if they agree in all of this, and a query never has the
  arguments of an action.
* Applying, deleting and asking for an object in a namespace carry the same options; asking for an
  object outside all namespaces carries the same but for the namespace.
* A rendered command without spaces in its words splits into the binary and the arguments. -/
theorem arguments_say_what_is_asked (options : Options) :
    ((∀ action file, readCall? (options.manifestArguments action file) =
        some ⟨options.kubeconfig?, options.context?, options.namespaceName?,
          .manifest action file⟩) ∧
      ∀ kind name clusterScoped, readCall? (options.getArguments kind name clusterScoped) =
        some ⟨options.kubeconfig?, options.context?,
          if clusterScoped then none else options.namespaceName?, .get kind name⟩) ∧
    (∀ (other : Options) action file action' file',
      options.manifestArguments action file = other.manifestArguments action' file' ↔
        options.kubeconfig? = other.kubeconfig? ∧ options.context? = other.context? ∧
          options.namespaceName? = other.namespaceName? ∧ action = action' ∧ file = file') ∧
    (∀ (other : Options) kind name clusterScoped kind' name' clusterScoped',
      options.getArguments kind name clusterScoped = other.getArguments kind' name' clusterScoped' ↔
        options.kubeconfig? = other.kubeconfig? ∧ options.context? = other.context? ∧
          options.namespaceFor? clusterScoped = other.namespaceFor? clusterScoped' ∧
          kind = kind' ∧ name = name') ∧
    (∀ (other : Options) kind name clusterScoped action file,
      options.getArguments kind name clusterScoped ≠ other.manifestArguments action file) ∧
    (∃ flags : List (String × String), (∀ flag ∈ flags, flag.1 ∈ flagNames) ∧
      (∀ action file, options.manifestArguments action file =
        flagArguments flags ++ (Purpose.manifest action file).command) ∧
      (∀ kind name, options.getArguments kind name false =
        flagArguments flags ++ (Purpose.get kind name).command) ∧
      ∀ kind name, options.getArguments kind name true =
        flagArguments (flags.filter fun flag => flag.1 ≠ "--namespace") ++
          (Purpose.get kind name).command) ∧
    ∀ action file,
      (∀ word ∈ options.binary :: options.manifestArguments action file, ' ' ∉ word.toList) →
      words (options.render action file) =
        options.binary :: options.manifestArguments action file := by
  refine ⟨⟨options.readCall?_manifestArguments, options.readCall?_getArguments⟩, ?_, ?_, ?_,
    ⟨options.flags true, ?_, ?_, ?_, ?_⟩, fun _ _ hspace => options.words_render hspace⟩
  · -- actions: reading both calls back shows what they have in common
    intro other action file action' file'
    constructor
    · intro harguments
      have hread := congrArg readCall? harguments
      rw [readCall?_manifestArguments, readCall?_manifestArguments] at hread
      simpa using hread
    · rintro ⟨hkubeconfig, hcontext, hnamespace, rfl, rfl⟩
      simp only [manifestArguments, globalArguments, hkubeconfig, hcontext, hnamespace]
  · -- queries: the same, with the namespace in effect instead of the one that is set
    intro other kind name clusterScoped kind' name' clusterScoped'
    constructor
    · intro harguments
      have hread := congrArg readCall? harguments
      rw [readCall?_getArguments, readCall?_getArguments] at hread
      simpa using hread
    · rintro ⟨hkubeconfig, hcontext, hnamespace, rfl, rfl⟩
      -- only the namespace in effect has a part in the arguments
      have hflags : options.flags (!clusterScoped) = other.flags (!clusterScoped') := by
        cases clusterScoped <;> cases clusterScoped' <;>
          simp_all [flags, namespaceFor?, flagPair]
      rw [getArguments_eq, getArguments_eq, globalArguments_eq, globalArguments_eq, hflags]
  · -- a query and an action are read back as different purposes
    intro other kind name clusterScoped action file harguments
    have hread := congrArg readCall? harguments
    rw [readCall?_getArguments, readCall?_manifestArguments] at hread
    simp at hread
  -- the options in front of the command, which the three kinds of calls share
  · intro flag hflag
    exact options.mem_flagNames_of_mem_flags hflag
  · intro action file
    rw [manifestArguments_eq, globalArguments_eq]
  · intro kind name
    rw [getArguments_eq, globalArguments_eq]
    rfl
  · intro kind name
    rw [getArguments_eq, globalArguments_eq, ← flags_false]
    rfl

/-- Values that read like options and commands. -/
def confusing : Options := ⟨"kubectl", some "--context", some "apply", some "-f"⟩

/-- They are read back for what they are, and so is the rendered command. -/
theorem reading_of_confusing :
    confusing.manifestArguments .delete ⟨"get"⟩ =
        ["--kubeconfig", "--context", "--context", "apply", "--namespace", "-f", "delete", "-f",
          "get", "--ignore-not-found"] ∧
      readCall? (confusing.manifestArguments .delete ⟨"get"⟩) =
        some ⟨some "--context", some "apply", some "-f", .manifest .delete ⟨"get"⟩⟩ ∧
      words (confusing.render .delete ⟨"get"⟩) =
        "kubectl" :: confusing.manifestArguments .delete ⟨"get"⟩ := by
  obtain ⟨⟨hread, -⟩, -, -, -, -, hwords⟩ := arguments_say_what_is_asked confusing
  exact ⟨rfl, hread .delete ⟨"get"⟩, hwords .delete ⟨"get"⟩ (by decide +kernel)⟩

end Options
end Rollout.Kubectl
