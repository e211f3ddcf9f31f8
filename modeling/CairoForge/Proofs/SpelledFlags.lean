import CairoForge.Command.Invocation
import Mathlib.Data.List.Nodup
import Mathlib.Data.List.Permutation
import Mathlib.Data.List.TakeWhile

/-!
# Spelled flags

Every option of a token can be given in one argument, as a switch or with its value behind an equals
sign. Such an argument is settled as it comes, so the order of the arguments makes no difference.

## Main definitions

* `Flag` — an argument that is settled as it comes.
* `Grammar.Takes` — a command knows a flag and takes its value.
* `Bindings.ofFlags` — what flags bind.
* `TokenOptions.flags` — the flags that spell the options of a token.
* `IsOperand`, `Invocation.operands` — the arguments that name a file.

## Main results

* `Grammar.bindFrom_flags` — flags are bound one after the other.
* `TokenOptions.ofBindings_flags` — the flags of options are bound to these options, in any order.
* `TokenOptions.ofArguments_flags` — the command line that spells a token.
* `Invocation.ofArguments_operands`, `Invocation.ofArguments_hash` — the command lines of a file.
-/

namespace CairoForge

/-- An argument that is settled as it comes. -/
inductive Flag where
  | switch (name : String)
  /-- An option with its value behind an equals sign. -/
  | option (name value : String)
  deriving DecidableEq

namespace Flag

/-- The name behind the hyphens. -/
def name : Flag → String
  | switch name => name
  | option name _ => name

/-- The argument as it is spelled. -/
def argument : Flag → String
  | switch name => "--" ++ name
  | option name value => "--" ++ name ++ "=" ++ value

/-- The switch that is given, if it is one. -/
def switch? : Flag → Option String
  | switch name => some name
  | option .. => none

/-- The option that is given and its value, if it is one. -/
def binding? : Flag → Option (String × String)
  | switch _ => none
  | option name value => some (name, value)

end Flag

/-! ## Forms -/

/-- A name that can stand behind two hyphens and asks for nothing special there. -/
def IsLongName (name : String) : Prop :=
  name ≠ "" ∧ name ≠ "help" ∧ '=' ∉ name.toList

instance : DecidablePred IsLongName := fun _ =>
  inferInstanceAs (Decidable (_ ∧ _ ∧ _))

theorem ArgumentForm.of_hyphens {argument : String} {rest : List Char}
    (h : argument.toList = '-' :: '-' :: rest) (hrest : rest ≠ []) :
    of argument = .long (splitAtEquals rest).1 (splitAtEquals rest).2 := by
  obtain ⟨c, rest, rfl⟩ := List.exists_cons_of_ne_nil hrest
  rw [of, h]
  rfl

theorem splitAtEquals_of_notMem {name : List Char} (h : '=' ∉ name) :
    splitAtEquals name = (String.ofList name, none) := by
  have htake : name.takeWhile (· ≠ '=') = name := by
    refine List.takeWhile_eq_self_iff.mpr fun c hc => ?_
    simpa using fun hsame : c = '=' => h (hsame ▸ hc)
  rw [splitAtEquals, htake, List.drop_length]

theorem splitAtEquals_append {name : List Char} (h : '=' ∉ name) (value : List Char) :
    splitAtEquals (name ++ '=' :: value) = (String.ofList name, some (String.ofList value)) := by
  have htake : (name ++ '=' :: value).takeWhile (· ≠ '=') = name := by
    rw [List.takeWhile_append_of_pos]
    · simp
    · intro c hc
      simpa using fun hsame : c = '=' => h (hsame ▸ hc)
  rw [splitAtEquals, htake, List.drop_left]

/-- A flag is read by its name, with the value of an option. -/
theorem Flag.form_argument {flag : Flag} (h : IsLongName flag.name) :
    ArgumentForm.of flag.argument = .long flag.name (flag.binding?.map Prod.snd) := by
  obtain ⟨hne, -, hequals⟩ := h
  cases flag with
  | switch name =>
    change name ≠ "" at hne
    change '=' ∉ name.toList at hequals
    have hletters : (Flag.switch name).argument.toList = '-' :: '-' :: name.toList := by
      simp [argument]
    rw [ArgumentForm.of_hyphens hletters (by simpa using hne), splitAtEquals_of_notMem hequals]
    simp [Flag.name, binding?]
  | option name value =>
    change '=' ∉ name.toList at hequals
    have hletters : (Flag.option name value).argument.toList =
        '-' :: '-' :: (name.toList ++ '=' :: value.toList) := by
      simp [argument]
    rw [ArgumentForm.of_hyphens hletters (by simp), splitAtEquals_append hequals]
    simp [Flag.name, binding?]

/-! ## Bindings -/

/-- What flags bind. -/
def Bindings.ofFlags (flags : List Flag) : Bindings where
  switches := flags.filterMap Flag.switch?
  values := flags.filterMap Flag.binding?

/-- **A command takes a flag**: it knows the switch, or the option and its value. -/
inductive Grammar.Takes (g : Grammar) : Flag → Prop
  | switch {name : String} (hname : IsLongName name)
    (hoption : g.options.find? (·.name == name) = none)
    (hswitch : g.switches.contains name = true) : g.Takes (.switch name)
  | option {name value : String} {argument : ValueArgument} (hname : IsLongName name)
    (hoption : g.options.find? (·.name == name) = some argument)
    (hvalue : argument.problem? value = none) : g.Takes (.option name value)

theorem Grammar.Takes.isLongName {g : Grammar} {flag : Flag} (h : g.Takes flag) :
    IsLongName flag.name := by
  cases h with
  | switch hname => exact hname
  | option hname => exact hname

namespace Bindings

theorem hasSwitch_ofFlags {flags : List Flag} {name : String} :
    (ofFlags flags).hasSwitch name = true ↔ .switch name ∈ flags := by
  rw [hasSwitch, List.contains_iff_mem, ofFlags, List.mem_filterMap]
  constructor
  · rintro ⟨flag, hflag, hname⟩
    cases flag with
    | switch other =>
      obtain rfl := Option.some.inj hname
      exact hflag
    | option other value => cases hname
  · exact fun h => ⟨_, h, rfl⟩

/-- The value of an option is what its flag says, if no other flag has its name. -/
theorem value?_ofFlags {flags : List Flag} (hnodup : (flags.map Flag.name).Nodup)
    {name value : String} (h : .option name value ∈ flags) :
    (ofFlags flags).value? name = some value := by
  induction flags with
  | nil => cases h
  | cons flag rest ih =>
    obtain ⟨hflag, hrest⟩ := List.nodup_cons.mp hnodup
    rcases List.mem_cons.mp h with rfl | h
    · exact List.lookup_cons_self
    -- the first flag has another name, so the lookup passes it
    · have hne : name ≠ flag.name := fun hsame =>
        hflag (hsame ▸ List.mem_map_of_mem (f := Flag.name) h)
      have hlater := ih hrest h
      cases flag with
      | switch other => exact hlater
      | option other otherValue =>
        change name ≠ other at hne
        rw [← hlater]
        change ((other, otherValue) :: _).lookup name = _
        rw [List.lookup_cons, beq_eq_false_iff_ne.mpr hne]
        rfl

/-- A name that no flag has is bound to nothing. -/
theorem value?_ofFlags_eq_none {flags : List Flag} {name : String}
    (h : name ∉ flags.map Flag.name) : (ofFlags flags).value? name = none := by
  refine List.lookup_eq_none_iff.mpr fun binding hbinding => ?_
  obtain ⟨flag, hflag, hsome⟩ := List.mem_filterMap.mp hbinding
  cases flag with
  | switch other => cases hsome
  | option other value =>
    obtain rfl := Option.some.inj hsome
    simpa using fun hsame : name = other => h (hsame ▸ List.mem_map_of_mem hflag)

end Bindings

namespace Grammar

variable {g : Grammar}

/-- An argument behind two hyphens that does not ask for help. -/
theorem bindFrom_long (g : Grammar) (b : Bindings) {argument name : String}
    {value? : Option String} (hform : ArgumentForm.of argument = .long name value?)
    (hname : name ≠ "help") (rest : List String) :
    g.bindFrom b (argument :: rest) =
      (g.bindLong b name value?).bind fun b => g.bindFrom b rest := by
  rw [bindFrom, hform]
  -- the branch for names is the only one that the form and the name leave
  split
  · cases ‹ArgumentForm.long _ _ = _›
  · next h => exact absurd (ArgumentForm.long.inj h).1 hname
  · next h => exact absurd (ArgumentForm.long.inj h).1 hname
  · next h =>
    obtain ⟨rfl, rfl⟩ := ArgumentForm.long.inj h
    rfl
  · cases ‹ArgumentForm.long _ _ = _›
  · cases ‹ArgumentForm.long _ _ = _›
  · cases ‹ArgumentForm.long _ _ = _›

/-- A flag of a new name joins those before it. -/
theorem bindLong_flag {first : List Flag} {flag : Flag} (h : g.Takes flag)
    (hnew : flag.name ∉ first.map Flag.name) :
    g.bindLong (.ofFlags first) flag.name (flag.binding?.map Prod.snd) =
      .ok (.ofFlags (first ++ [flag])) := by
  have hjoined : Bindings.ofFlags (first ++ [flag]) =
      { switches := first.filterMap Flag.switch? ++ flag.switch?.toList
        values := first.filterMap Flag.binding? ++ flag.binding?.toList } := by
    rw [Bindings.ofFlags, List.filterMap_append, List.filterMap_append]
    cases flag <;> rfl
  rw [hjoined]
  -- a name that was not given before is bound at the end
  cases h with
  | @switch name _ hoption hswitch =>
    have hfree : (Bindings.ofFlags first).hasSwitch name = false := by
      rw [← Bool.not_eq_true, Bindings.hasSwitch_ofFlags]
      exact fun hmem => hnew (List.mem_map_of_mem (f := Flag.name) hmem)
    change g.bindLong (.ofFlags first) name none = _
    simp only [bindLong, hoption, hswitch, if_true]
    change (if (Bindings.ofFlags first).hasSwitch name then _ else _) = _
    rw [hfree]
    simp [Flag.switch?, Flag.binding?, Bindings.ofFlags]
  | @option name value argument _ hoption hvalue =>
    obtain rfl : argument.name = name := by simpa using List.find?_some hoption
    have hfree := Bindings.value?_ofFlags_eq_none hnew
    change g.bindLong (.ofFlags first) argument.name (some value) = _
    simp only [bindLong, hoption]
    change (Bindings.ofFlags first).settleValue argument value = _
    change (Bindings.ofFlags first).value? argument.name = none at hfree
    rw [Bindings.settleValue, hfree, hvalue]
    simp [Flag.switch?, Flag.binding?, Bindings.ofFlags]

/-- **Flags are bound one after the other.** -/
theorem bindFrom_flags {first later : List Flag}
    (hnodup : ((first ++ later).map Flag.name).Nodup) (hlater : ∀ flag ∈ later, g.Takes flag) :
    g.bindFrom (.ofFlags first) (later.map Flag.argument) = .ok (.ofFlags (first ++ later)) := by
  -- one argument moves from the flags to come to those that are bound
  induction later generalizing first with
  | nil => rw [List.append_nil]; rfl
  | cons flag later ih =>
    obtain ⟨hflag, hlater⟩ := List.forall_mem_cons.mp hlater
    have hsplit : first ++ flag :: later = (first ++ [flag]) ++ later := by simp
    have hnew : flag.name ∉ first.map Flag.name := by
      rw [List.map_append, List.map_cons] at hnodup
      have hapart := (List.nodup_append.mp hnodup).2.2
      exact fun hmem => hapart _ hmem _ List.mem_cons_self rfl
    rw [List.map_cons, bindFrom_long g _ (Flag.form_argument hflag.isLongName)
      hflag.isLongName.2.1, bindLong_flag hflag hnew, hsplit]
    exact ih (hsplit ▸ hnodup) hlater

end Grammar

/-! ## Options of a token -/

theorem toOption_parseByte_decimalText_of_lt :
    ∀ n : Nat, n < 256 → (parseByte (decimalText n)).toOption = some (UInt8.ofNat n) := by
  decide +kernel

/-- The decimal spelling of a byte is read as this byte. -/
theorem parseByte_decimalText (n : UInt8) : parseByte (decimalText n.toNat) = .ok n := by
  have h := toOption_parseByte_decimalText_of_lt n.toNat (UInt8.toNat_lt n)
  rw [UInt8.ofNat_toNat] at h
  cases hparse : parseByte (decimalText n.toNat) with
  | error reason => rw [hparse] at h; cases h
  | ok m => rw [hparse] at h; exact congrArg Except.ok (Option.some.inj h)

/-- The word of an access mode is read as this mode. -/
theorem parseAccess_name (mode : AccessMode) : parseAccess mode.name = .ok mode := by
  rw [parseAccess, AccessMode.ofName?_name]

theorem ValueArgument.problem?_parsed {α : Type} (name label : String)
    {parse : String → Except String α} {text : String} {value : α} (h : parse text = .ok value) :
    (ValueArgument.parsed name label parse).problem? text = none := by
  simp only [ValueArgument.parsed, h]

namespace TokenOptions

/-- What options say in words, by the name of the argument. -/
def words (o : TokenOptions) : List (String × String) :=
  [("name", o.name), ("symbol", o.symbol), ("decimals", decimalText o.decimals.toNat),
    ("access", o.shared.access.name), ("security-contact", o.shared.info.securityContact),
    ("license", o.shared.info.license)]

/-- What options turn on or off, by the name of the switch, and whether JSON is asked for. -/
def choices (o : TokenOptions) (asJson : Bool) : List (String × Bool) :=
  [("burnable", o.burnable), ("snapshots", o.snapshots), ("pausable", o.pausable),
    ("mintable", o.mintable), ("permit", o.permit), ("votes", o.votes),
    ("flashmint", o.flashmint), ("upgradeable", o.shared.upgradeable), ("json", asJson)]

/-- **The flags that spell the options of a token.** -/
def flags (o : TokenOptions) (asJson : Bool) : List Flag :=
  o.words.map (fun word => .option word.1 word.2) ++
    ((o.choices asJson).filter Prod.snd).map fun choice => .switch choice.1

theorem map_fst_words (o : TokenOptions) :
    o.words.map Prod.fst = tokenGrammar.options.map ValueArgument.name := rfl

theorem map_fst_choices (o : TokenOptions) (asJson : Bool) :
    (o.choices asJson).map Prod.fst = tokenGrammar.switches := rfl

variable {o : TokenOptions} {asJson : Bool}

/-- No two flags have one name. -/
theorem nodup_name_flags : ((o.flags asJson).map Flag.name).Nodup := by
  have hnames : ((o.flags asJson).map Flag.name).Sublist
      (o.words.map Prod.fst ++ (o.choices asJson).map Prod.fst) := by
    rw [flags, List.map_append, List.map_map, List.map_map]
    exact (List.Sublist.refl _).append (List.filter_sublist.map Prod.fst)
  rw [map_fst_words, map_fst_choices] at hnames
  exact List.Nodup.sublist hnames (by decide)

theorem takes_of_mem_words :
    ∀ word ∈ o.words, tokenGrammar.Takes (.option word.1 word.2) := by
  have hdecimals := ValueArgument.problem?_parsed "decimals" "--decimals <DECIMALS>"
    (parseByte_decimalText o.decimals)
  have haccess := ValueArgument.problem?_parsed "access" "--access <ACCESS>"
    (parseAccess_name o.shared.access)
  simp only [words, List.forall_mem_cons, List.not_mem_nil, false_imp_iff, implies_true, and_true]
  exact ⟨.option (by decide) rfl rfl, .option (by decide) rfl rfl,
    .option (by decide) rfl hdecimals, .option (by decide) rfl haccess,
    .option (by decide) rfl rfl, .option (by decide) rfl rfl⟩

/-- The command that writes a token takes its flags. -/
theorem takes_of_mem_flags {flag : Flag} (h : flag ∈ o.flags asJson) :
    tokenGrammar.Takes flag := by
  rcases List.mem_append.mp h with h | h
  · obtain ⟨word, hword, rfl⟩ := List.mem_map.mp h
    exact takes_of_mem_words word hword
  · obtain ⟨choice, hchoice, rfl⟩ := List.mem_map.mp h
    have hname : choice.1 ∈ tokenGrammar.switches :=
      map_fst_choices o asJson ▸ List.mem_map_of_mem (List.mem_filter.mp hchoice).1
    have hknown : ∀ name ∈ tokenGrammar.switches, IsLongName name ∧
        (tokenGrammar.options.find? (·.name == name)).isNone := by
      decide
    obtain ⟨hlong, hoption⟩ := hknown choice.1 hname
    exact .switch hlong (Option.isNone_iff_eq_none.mp hoption)
      (List.contains_iff_mem.mpr hname)

variable {flags : List Flag} (hflags : flags.Perm (o.flags asJson))

include hflags

theorem value?_ofFlags_flags {name word : String} (h : (name, word) ∈ o.words) :
    (Bindings.ofFlags flags).value? name = some word := by
  refine Bindings.value?_ofFlags ((hflags.map Flag.name).nodup_iff.mpr nodup_name_flags) ?_
  exact hflags.mem_iff.mpr (List.mem_append_left _ (List.mem_map.mpr ⟨_, h, rfl⟩))

theorem hasSwitch_ofFlags_flags {name : String} {choice : Bool}
    (h : (name, choice) ∈ o.choices asJson) :
    (Bindings.ofFlags flags).hasSwitch name = choice := by
  have hnodup : ((o.choices asJson).map Prod.fst).Nodup := map_fst_choices o asJson ▸ by decide
  rw [Bool.eq_iff_iff, Bindings.hasSwitch_ofFlags, hflags.mem_iff, TokenOptions.flags]
  constructor
  · intro hmem
    rcases List.mem_append.mp hmem with hmem | hmem
    · obtain ⟨word, -, hword⟩ := List.mem_map.mp hmem
      cases hword
    · obtain ⟨other, hother, hsame⟩ := List.mem_map.mp hmem
      obtain ⟨hother, htrue⟩ := List.mem_filter.mp hother
      have hname : other.1 = name := Flag.switch.inj hsame
      obtain rfl := List.inj_on_of_nodup_map hnodup hother h hname
      exact htrue
  · rintro rfl
    exact List.mem_append_right _ (List.mem_map.mpr ⟨_, List.mem_filter.mpr ⟨h, rfl⟩, rfl⟩)

/-- **The flags of options are bound to these options, in any order.** -/
theorem ofBindings_flags : ofBindings (.ofFlags flags) = o := by
  have hwords : ∀ word ∈ o.words, (Bindings.ofFlags flags).value? word.1 = some word.2 :=
    fun word hword => value?_ofFlags_flags hflags hword
  have hchoices : ∀ choice ∈ o.choices asJson,
      (Bindings.ofFlags flags).hasSwitch choice.1 = choice.2 :=
    fun choice hchoice => hasSwitch_ofFlags_flags hflags hchoice
  have hdecimals : (parseByte (decimalText o.decimals.toNat)).toOption = some o.decimals := by
    rw [parseByte_decimalText]
    rfl
  have haccess : (parseAccess o.shared.access.name).toOption = some o.shared.access := by
    rw [parseAccess_name]
    rfl
  simp only [words, choices, List.forall_mem_cons] at hwords hchoices
  simp only [ofBindings, hwords, hchoices, Option.getD_some, Option.bind_some, hdecimals, haccess]

/-- The command line that spells a token. -/
theorem ofArguments_flags :
    Invocation.ofArguments ("erc20" :: flags.map Flag.argument) = .ok (.token o asJson) := by
  have hbind : tokenGrammar.bind (flags.map Flag.argument) = .ok (.ofFlags flags) := by
    have h := @Grammar.bindFrom_flags tokenGrammar [] flags
      ((hflags.map Flag.name).nodup_iff.mpr nodup_name_flags)
      fun flag hflag => takes_of_mem_flags (hflags.mem_iff.mp hflag)
    change (tokenGrammar.bindFrom (.ofFlags []) _).bind _ = _
    rw [h]
    rfl
  change ((tokenGrammar.bind (flags.map Flag.argument)).bind fun b =>
    .ok (CommandName.erc20.invocation b)) = _
  rw [hbind]
  have hjson : (Bindings.ofFlags flags).hasSwitch "json" = asJson :=
    hasSwitch_ofFlags_flags hflags (by simp [choices])
  change Except.ok (Invocation.token (ofBindings (.ofFlags flags))
    ((Bindings.ofFlags flags).hasSwitch "json")) = _
  rw [ofBindings_flags hflags, hjson]

end TokenOptions

/-! ## Operands -/

/-- The arguments that name a file, with or without asking for JSON. -/
def Invocation.operands (file : String) (asJson : Bool) : List String :=
  file :: if asJson then ["--json"] else []

/-- An argument that names a file. -/
def IsOperand (file : String) : Prop :=
  file ≠ "" ∧ ArgumentForm.of file = .plain

instance : DecidablePred IsOperand := fun _ =>
  inferInstanceAs (Decidable (_ ∧ _))

namespace Bindings

/-- The operand was given and is still to be settled. -/
def awaiting (b : Bindings) (operand : ValueArgument) (value : String) : Bindings :=
  { b with pending? := some ⟨operand, some value⟩, hasOperand := true }

/-- The operand joins the other values. -/
def settled (b : Bindings) (operand : ValueArgument) (value : String) : Bindings :=
  { b with values := b.values ++ [(operand.name, value)], hasOperand := true }

end Bindings

namespace Grammar

variable {g : Grammar} {b : Bindings} {operand : ValueArgument} {value : String}

theorem bindFrom_operand (hg : g.operand? = some operand) (hform : ArgumentForm.of value = .plain)
    (hfresh : b.hasOperand = false) (hsettled : b.pending? = none) (rest : List String) :
    g.bindFrom b (value :: rest) = g.bindFrom (b.awaiting operand value) rest := by
  rw [bindFrom, hform]
  simp only [hsettled, bindPlain, hg, hfresh, Bindings.giveOperand, Bindings.settle]
  rfl

theorem settle_awaiting (hvalue : operand.problem? value = none)
    (hfree : b.value? operand.name = none) (hsettled : b.pending? = none) :
    (b.awaiting operand value).settle = .ok (b.settled operand value) := by
  change (b.awaiting operand value).settleValue operand value = _
  change (b.awaiting operand value).value? operand.name = none at hfree
  rw [Bindings.settleValue, hfree, hvalue]
  simp [Bindings.awaiting, Bindings.settled, hsettled]

/-- Nothing is missing once the operand was given. -/
theorem bind_of_bindFrom {arguments : List String} (h : g.bindFrom {} arguments = .ok b)
    (hgiven : b.hasOperand = true) : g.bind arguments = .ok b := by
  change (g.bindFrom {} arguments).bind _ = _
  rw [h]
  simp [Except.bind, hgiven]

end Grammar

theorem ValueArgument.problem?_file {name : String} (h : IsOperand name) :
    file.problem? name = none := by
  have hne : name.isEmpty = false := by simpa using h.1
  simp only [file, hne]
  rfl

namespace Invocation

variable {file : String} (hfile : IsOperand file)

include hfile

theorem bind_file {g : Grammar} (hg : g.operand? = some .file) :
    g.bind [file] = .ok (Bindings.settled {} .file file) :=
  Grammar.bind_of_bindFrom ((Grammar.bindFrom_operand hg hfile.2 rfl rfl []).trans
    (Grammar.settle_awaiting (ValueArgument.problem?_file hfile) rfl rfl)) rfl

/-- The command line that hashes the source of a file. -/
theorem ofArguments_hash : ofArguments ["hash", file] = .ok (.hash file) := by
  change ((CommandName.grammar .hash).bind [file]).bind _ = _
  rw [bind_file hfile rfl]
  rfl

/-- The command line that writes the contract of a file. -/
theorem ofArguments_operands {arguments : List String} {asJson : Bool}
    (harguments : arguments.Perm (operands file asJson)) :
    ofArguments ("generate" :: arguments) = .ok (.generate file asJson) := by
  change ((CommandName.grammar .generate).bind arguments).bind _ = _
  cases asJson with
  | false =>
    obtain rfl := List.perm_singleton.mp harguments
    rw [bind_file hfile rfl]
    rfl
  | true =>
    have hproblem := ValueArgument.problem?_file hfile
    have hform : ArgumentForm.of "--json" = .long "json" none := by decide
    rcases List.perm_pair.mp harguments with rfl | rfl
    · -- The operand is settled by the switch behind it.
      have h : (CommandName.grammar .generate).bindFrom {} [file, "--json"] =
          .ok { Bindings.settled {} .file file with switches := ["json"] } := by
        rw [Grammar.bindFrom_operand rfl hfile.2 rfl rfl,
          Grammar.bindFrom_long _ _ hform (by decide)]
        change ((((Bindings.awaiting {} .file file).settle).bind _).bind _) = _
        rw [Grammar.settle_awaiting hproblem rfl rfl]
        rfl
      rw [Grammar.bind_of_bindFrom h rfl]
      rfl
    · have h : (CommandName.grammar .generate).bindFrom {} ["--json", file] =
          .ok (Bindings.settled { switches := ["json"] } .file file) := by
        rw [Grammar.bindFrom_long _ _ hform (by decide)]
        change (CommandName.grammar .generate).bindFrom { switches := ["json"] } [file] = _
        rw [Grammar.bindFrom_operand rfl hfile.2 rfl rfl]
        exact Grammar.settle_awaiting hproblem rfl rfl
      rw [Grammar.bind_of_bindFrom h rfl]
      rfl

end Invocation

end CairoForge
