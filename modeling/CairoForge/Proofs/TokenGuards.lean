import CairoForge.Proofs.ImportClosure
import CairoForge.Proofs.Signatures
import CairoForge.Request

/-!
# Guards of a token

The guards of an entry point come from different mixins: an entry point can be restricted by the
one that adds it and guarded again by pausing. In the source of a token every restricted entry
point starts with its access guard, every paused one has the guard of pausing right in front of its
call, and no other function has either.

## Main definitions

* `TokenOptions.entryPoints` — what the chosen features register.
* `restrictedEntryPoints`, `pausedNames` — who is guarded, by name.

## Main results

* `functions_of_events` — the functions that a sequence of events leaves.
* `TokenOptions.exists_function_iff` — the functions of a token are those of the chosen features.
* `TokenOptions.statements_eq` — the guards and the call of every function of a token.
* `TokenOptions.source_guards` — the guards in the source of a token.
-/

namespace CairoForge

/-! ## Functions of a sequence of events -/

/-- **Functions of a sequence of events** without changes of bodies: the modifiers of each are those
attached to its signature, its template is that of an event, and every event has its function. -/
theorem functions_of_events {events : List (FunctionTemplate × FunctionEvent)}
    (hevents : ∀ event ∈ events, event.2.change? = none) :
    (∀ function ∈ (events.foldl writeEvent .empty).toList,
      function.modifiers = attachedTo function.signature events ∧
        ∃ event ∈ events, event.1 = function.template) ∧
    ∀ event ∈ events, ∃ function ∈ (events.foldl writeEvent .empty).toList,
      function.signature = event.1.signature := by
  -- the log has one accepted entry for each event
  have hreplays : Replays (events.map fun event => ⟨event.1, event.2, true⟩)
      (events.foldl writeEvent .empty) := by
    have hempty : Replays [] .empty := Contract.replays_new ""
    simpa using hempty.writes true hevents
  refine ⟨?_, ?_⟩
  · -- what the log says of a function is what the events say of it
    intro function hfunction
    obtain ⟨htemplate, hmodifiers, -⟩ := hreplays.recorded function hfunction
    refine ⟨?_, ?_⟩
    · rw [hmodifiers, modifiersFor, entriesFor, List.filter_map, List.filterMap_map]
      rfl
    · obtain ⟨entry, hentry, hsame⟩ := Option.map_eq_some_iff.mp htemplate
      have hmem := (List.mem_filter.mp (List.mem_of_mem_head? hentry)).1
      obtain ⟨event, hevent, rfl⟩ := List.mem_map.mp hmem
      exact ⟨event, hevent, hsame⟩
  · intro event hevent
    have hkey : event.1.signature ∈ (events.foldl writeEvent .empty).keys := by
      rw [hreplays.mem_keys, List.map_map]
      exact List.mem_map.mpr ⟨event, hevent, rfl⟩
    obtain ⟨function, hfunction, hsignature⟩ := List.mem_map.mp hkey
    exact ⟨function, hfunction, hsignature⟩

/-! ## Entry points by feature -/

namespace EntryPoint

/-- The entry points of all extensions. -/
def extending : List FunctionTemplate :=
  [burn, snapshot, balanceOfAt, mint, permit, nonces, delegate, delegates, getVotes, flashLoan,
    maxFlashLoan]

/-- Every entry point that a token can have. -/
def all : List FunctionTemplate :=
  standard ++ extending ++ [.paused, .pause, .unpause, .upgrade]

/-- Entry points of a token differ by name. -/
theorem eq_of_name_eq {s t : FunctionTemplate} (hs : s ∈ all) (ht : t ∈ all)
    (h : s.name = t.name) : s = t :=
  Registry.eq_of_key_eq_of_nodup (by decide +kernel) hs ht h

/-- No name in the entry points of a token runs into the text around it. -/
theorem wellNamed_of_mem_all : ∀ template ∈ all, template.WellNamed := by
  decide +kernel

theorem eq_of_signature_eq {s t : FunctionTemplate} (hs : s ∈ all) (ht : t ∈ all)
    (h : s.signature = t.signature) : s = t := by
  have hnamed := (FunctionTemplate.signature_eq_iff (wellNamed_of_mem_all s hs)
    (wellNamed_of_mem_all t ht)).mp h
  exact eq_of_name_eq hs ht hnamed.1

end EntryPoint

/-- The entry points that the chosen features register, each feature its own. -/
def TokenOptions.entryPoints (o : TokenOptions) : List FunctionTemplate :=
  EntryPoint.standard ++
    (if o.burnable then [EntryPoint.burn] else []) ++
    (if o.snapshots then [EntryPoint.snapshot, EntryPoint.balanceOfAt] else []) ++
    (if o.mintable then [EntryPoint.mint] else []) ++
    (if o.permit then [EntryPoint.permit, EntryPoint.nonces] else []) ++
    (if o.votes then [EntryPoint.delegate, EntryPoint.delegates, EntryPoint.getVotes] else []) ++
    (if o.flashmint then [EntryPoint.flashLoan, EntryPoint.maxFlashLoan] else []) ++
    (if o.pausable then [.paused, .pause, .unpause] else []) ++
    (if o.shared.upgradeable then [.upgrade] else [])

/-! ## Events of a token -/

theorem Mixin.change?_of_mem_events {mixin : Mixin} {event : FunctionTemplate × FunctionEvent}
    (h : event ∈ mixin.events) : event.2.change? = none := by
  -- mixins attach guards and mention functions
  cases mixin with
  | pausing mode entries =>
    have hbody : (Operation.makePausable mode entries).changesBody = false := rfl
    exact Operation.change?_of_mem_events hbody h
  | upgrading upgradeable mode =>
    have hbody : (Operation.makeUpgradeable upgradeable mode).changesBody = false := rfl
    exact Operation.change?_of_mem_events hbody h
  | _ =>
    revert event
    simp [events, FunctionEvent.change?]

namespace TokenOptions

/-- The events of a mixin that may be asked for or not. -/
def eventsIf (asked : Bool) (mixin : Mixin) : List (FunctionTemplate × FunctionEvent) :=
  if asked then mixin.events else []

/-- What the mixins of a token do to its functions, in order. -/
def events (o : TokenOptions) : List (FunctionTemplate × FunctionEvent) :=
  EntryPoint.standard.map (fun template => (template, .mention)) ++
    eventsIf o.burnable .burning ++ eventsIf o.snapshots (.snapshots o.shared.access) ++
    eventsIf o.mintable (.minting o.shared.access) ++ eventsIf o.permit (.permit o.name) ++
    eventsIf o.votes .votes ++ eventsIf o.flashmint .flashMint ++
    eventsIf o.pausable (.pausing o.shared.access o.pausedEntryPoints) ++
    Mixin.events (.upgrading o.shared.upgradeable o.shared.access)

theorem flatMap_events_ite (asked : Bool) (mixin : Mixin) :
    (if asked then [mixin] else []).flatMap Mixin.events = eventsIf asked mixin := by
  cases asked <;> simp [eventsIf]

theorem events_eq (o : TokenOptions) :
    o.events =
      EntryPoint.standard.map (fun template => (template, .mention)) ++
        o.mixins.flatMap Mixin.events := by
  simp only [events, mixins, mixinsBeforeVotes, mixinsAfterVotes, List.flatMap_append,
    flatMap_events_ite, List.append_assoc]
  simp [Mixin.events]

/-- The functions of a token are those of its events. -/
theorem functions_assembled {o : TokenOptions} (h : o.validate = .ok ()) :
    o.assembled.functions = (o.events.foldl writeEvent .empty).toList := by
  rw [Contract.functions, assembled, Mixin.functionRegistry_foldl (allAccepted_mixins h), events_eq,
    List.foldl_append, baseContract, Contract.addTokenBase_eq]
  rfl

theorem change?_of_mem_events {o : TokenOptions} {event : FunctionTemplate × FunctionEvent}
    (h : event ∈ o.events) : event.2.change? = none := by
  rw [events_eq] at h
  rcases List.mem_append.mp h with hstandard | hmixins
  · obtain ⟨template, -, rfl⟩ := List.mem_map.mp hstandard
    rfl
  · obtain ⟨mixin, -, hevent⟩ := List.mem_flatMap.mp hmixins
    exact Mixin.change?_of_mem_events hevent

theorem subset_all {o : TokenOptions} : o.entryPoints ⊆ EntryPoint.all := by
  have hasked : ∀ (asked : Bool) {templates : List FunctionTemplate},
      templates ⊆ EntryPoint.all → (if asked then templates else []) ⊆ EntryPoint.all := by
    intro asked templates hsubset
    cases asked with
    | false => exact List.nil_subset _
    | true => exact hsubset
  simp only [entryPoints, List.append_subset]
  refine ⟨⟨⟨⟨⟨⟨⟨⟨?_, hasked _ ?_⟩, hasked _ ?_⟩, hasked _ ?_⟩, hasked _ ?_⟩, hasked _ ?_⟩,
    hasked _ ?_⟩, hasked _ ?_⟩, hasked _ ?_⟩ <;> decide

/-- The entry points that pausing guards are there without it. -/
theorem pausedEntryPoints_subset {o : TokenOptions} : o.pausedEntryPoints ⊆ o.entryPoints := by
  intro template h
  simp only [pausedEntryPoints, List.mem_append, List.mem_ite_nil_right, List.mem_singleton] at h
  rcases h with (((hstandard | ⟨hasked, rfl⟩) | ⟨hasked, rfl⟩) | ⟨hasked, rfl⟩) | ⟨hasked, rfl⟩
  · have hall : [EntryPoint.transfer, EntryPoint.transferFrom, EntryPoint.approve,
        EntryPoint.increaseAllowance, EntryPoint.decreaseAllowance] ⊆ EntryPoint.standard := by
      decide
    simp only [entryPoints, List.append_assoc]
    exact List.mem_append_left _ (hall hstandard)
  all_goals simp [entryPoints, hasked]

/-- The templates of the events: those of the features, and those that pausing guards. -/
theorem map_fst_events (o : TokenOptions) :
    o.events.map Prod.fst =
      EntryPoint.standard ++
        (if o.burnable then [EntryPoint.burn] else []) ++
        (if o.snapshots then [EntryPoint.snapshot, EntryPoint.balanceOfAt] else []) ++
        (if o.mintable then [EntryPoint.mint] else []) ++
        (if o.permit then [EntryPoint.permit, EntryPoint.nonces] else []) ++
        (if o.votes then
          [EntryPoint.delegate, EntryPoint.delegates, EntryPoint.getVotes] else []) ++
        (if o.flashmint then [EntryPoint.flashLoan, EntryPoint.maxFlashLoan] else []) ++
        (if o.pausable then o.pausedEntryPoints ++ [.paused, .pause, .unpause] else []) ++
        (if o.shared.upgradeable then [.upgrade] else []) := by
  have hmention : EntryPoint.standard.map (Prod.fst ∘ fun template =>
      (template, FunctionEvent.mention)) = EntryPoint.standard := List.map_id _
  simp only [events, eventsIf, List.map_append, List.map_map, hmention, apply_ite (List.map _),
    Mixin.events, Operation.events, List.map_cons, List.map_nil]
  have hguarded : o.pausedEntryPoints.map (Prod.fst ∘ fun entry =>
      (entry, FunctionEvent.attach notPausedGuard)) = o.pausedEntryPoints := List.map_id _
  rw [hguarded]

/-- **What events are about**: the entry points of the chosen features, and no others. -/
theorem mem_events_iff {o : TokenOptions} {template : FunctionTemplate} :
    (∃ event ∈ o.events, event.1 = template) ↔ template ∈ o.entryPoints := by
  rw [← List.mem_map, map_fst_events]
  constructor
  · intro hmem
    rcases List.mem_append.mp hmem with hmem | hupgrade
    · rcases List.mem_append.mp hmem with hfeature | hpausing
      · exact List.mem_append_left _ (List.mem_append_left _ hfeature)
      · obtain ⟨hasked, hmem⟩ := List.mem_ite_nil_right.mp hpausing
        rcases List.mem_append.mp hmem with hguarded | hswitch
        · -- what is guarded is there for another reason
          exact pausedEntryPoints_subset hguarded
        · exact List.mem_append_left _ (List.mem_append_right _
            (List.mem_ite_nil_right.mpr ⟨hasked, hswitch⟩))
    · exact List.mem_append_right _ hupgrade
  · intro hmem
    rcases List.mem_append.mp hmem with hmem | hupgrade
    · rcases List.mem_append.mp hmem with hfeature | hpausing
      · exact List.mem_append_left _ (List.mem_append_left _ hfeature)
      · obtain ⟨hasked, hswitch⟩ := List.mem_ite_nil_right.mp hpausing
        exact List.mem_append_left _ (List.mem_append_right _
          (List.mem_ite_nil_right.mpr ⟨hasked, List.mem_append_right _ hswitch⟩))
    · exact List.mem_append_right _ hupgrade

/-- Every function of a token is an entry point of a chosen feature, and the other way round. -/
theorem exists_function_iff {o : TokenOptions} (h : o.validate = .ok ())
    {template : FunctionTemplate} :
    (∃ function ∈ o.assembled.functions, function.template = template) ↔
      template ∈ o.entryPoints := by
  rw [functions_assembled h]
  obtain ⟨hfunctions, hexists⟩ := functions_of_events fun event => change?_of_mem_events (o := o)
  constructor
  · rintro ⟨function, hfunction, rfl⟩
    exact mem_events_iff.mp (hfunctions function hfunction).2
  · intro hmem
    obtain ⟨event, hevent, rfl⟩ := mem_events_iff.mpr hmem
    obtain ⟨function, hfunction, hsignature⟩ := hexists event hevent
    obtain ⟨other, hother, htemplate⟩ := (hfunctions function hfunction).2
    -- the function of the signature has the template itself, since signatures tell them apart
    refine ⟨function, hfunction, ?_⟩
    have hfunctionmem := subset_all (mem_events_iff.mp ⟨other, hother, htemplate⟩)
    exact EntryPoint.eq_of_signature_eq hfunctionmem (subset_all hmem) hsignature

end TokenOptions

/-! ## Guards by name -/

/-- The entry points that only the owner or the holders of a role may call, with the role. -/
def restrictedEntryPoints : List (String × String) :=
  [("mint", "MINTER"), ("snapshot", "SNAPSHOT"), ("pause", "PAUSER"), ("unpause", "PAUSER"),
    ("upgrade", "UPGRADER")]

/-- The entry points that must not run while a token is paused. -/
def pausedNames : List String :=
  ["transfer", "transferFrom", "approve", "increaseAllowance", "decreaseAllowance", "burn", "mint",
    "permit", "flashLoan"]

namespace TokenOptions

/-- The access guard of the entry points of a name, if they are restricted. -/
def accessGuards (o : TokenOptions) (name : String) : List String :=
  (restrictedEntryPoints.lookup name).toList.map fun role => o.shared.access.guardStatement role

/-- The guard of pausing for the entry points of a name, if they can be paused. -/
def pauseGuards (o : TokenOptions) (name : String) : List String :=
  if o.pausable = true ∧ name ∈ pausedNames then [notPausedGuard] else []

end TokenOptions

/-- The modifiers that events attach to entry points of a name, in order. -/
def guardsNamed (name : String) (events : List (FunctionTemplate × FunctionEvent)) : List String :=
  (events.filter (·.1.name == name)).filterMap (·.2.modifier?)

section

variable (name : String)

theorem guardsNamed_append (first second : List (FunctionTemplate × FunctionEvent)) :
    guardsNamed name (first ++ second) = guardsNamed name first ++ guardsNamed name second := by
  simp [guardsNamed]

theorem guardsNamed_mention (template : FunctionTemplate)
    (rest : List (FunctionTemplate × FunctionEvent)) :
    guardsNamed name ((template, .mention) :: rest) = guardsNamed name rest := by
  by_cases h : template.name = name <;> simp [guardsNamed, FunctionEvent.modifier?, h]

theorem guardsNamed_attach (template : FunctionTemplate) (modifier : String)
    (rest : List (FunctionTemplate × FunctionEvent)) :
    guardsNamed name ((template, .attach modifier) :: rest) =
      (if template.name = name then [modifier] else []) ++ guardsNamed name rest := by
  by_cases h : template.name = name <;> simp [guardsNamed, FunctionEvent.modifier?, h]

theorem guardsNamed_mentions (templates : List FunctionTemplate) :
    guardsNamed name (templates.map fun template => (template, .mention)) = [] := by
  induction templates with
  | nil => rfl
  | cons template rest ih => rw [List.map_cons, guardsNamed_mention, ih]

/-- One modifier for several entry points of different names comes once to each. -/
theorem guardsNamed_attaches {templates : List FunctionTemplate} (modifier : String)
    (h : (templates.map (·.name)).Nodup) :
    guardsNamed name (templates.map fun template => (template, .attach modifier)) =
      if name ∈ templates.map (·.name) then [modifier] else [] := by
  induction templates with
  | nil => rfl
  | cons template rest ih =>
    obtain ⟨hfirst, hrest⟩ := List.nodup_cons.mp h
    rw [List.map_cons, guardsNamed_attach, ih hrest]
    by_cases hname : template.name = name
    · subst hname
      simp [hfirst]
    · simp [hname, Ne.symm hname]

end

namespace TokenOptions

theorem nodup_pausedEntryPoints (o : TokenOptions) :
    (o.pausedEntryPoints.map (·.name)).Nodup := by
  unfold pausedEntryPoints
  cases o.burnable <;> cases o.mintable <;> cases o.permit <;> cases o.flashmint <;> decide

/-- The guards of the entry points of a name, mixin by mixin. -/
theorem guardsNamed_events (o : TokenOptions) (name : String) :
    guardsNamed name o.events =
      (if o.snapshots = true ∧ name = "snapshot" then
        [o.shared.access.guardStatement "SNAPSHOT"] else []) ++
      (if o.mintable = true ∧ name = "mint" then
        [o.shared.access.guardStatement "MINTER"] else []) ++
      (if o.pausable = true then
        (if name ∈ o.pausedEntryPoints.map (·.name) then [notPausedGuard] else []) ++
        (if name = "pause" then [o.shared.access.guardStatement "PAUSER"] else []) ++
        (if name = "unpause" then [o.shared.access.guardStatement "PAUSER"] else []) else []) ++
      (if o.shared.upgradeable = true ∧ name = "upgrade" then
        [o.shared.access.guardStatement "UPGRADER"] else []) := by
  -- the events of each mixin in turn, the optional ones inside their conditions
  have hpaused := guardsNamed_attaches name notPausedGuard o.nodup_pausedEntryPoints
  have hnil : guardsNamed name [] = [] := rfl
  have hsnapshot : EntryPoint.snapshot.name = name ↔ name = "snapshot" := eq_comm
  have hmint : EntryPoint.mint.name = name ↔ name = "mint" := eq_comm
  have hpause : FunctionTemplate.pause.name = name ↔ name = "pause" := eq_comm
  have hunpause : FunctionTemplate.unpause.name = name ↔ name = "unpause" := eq_comm
  have hupgrade : FunctionTemplate.upgrade.name = name ↔ name = "upgrade" := eq_comm
  simp only [events, eventsIf, Mixin.events, Operation.events, guardsNamed_append,
    guardsNamed_mentions, guardsNamed_mention, guardsNamed_attach, apply_ite (guardsNamed name),
    hpaused, hnil, hsnapshot, hmint, hpause, hunpause, hupgrade, List.append_nil, List.nil_append,
    ite_self, ite_and, List.append_assoc]

theorem map_name_pausedEntryPoints (o : TokenOptions) :
    o.pausedEntryPoints.map (·.name) =
      ["transfer", "transferFrom", "approve", "increaseAllowance", "decreaseAllowance"] ++
        (if o.burnable then ["burn"] else []) ++ (if o.mintable then ["mint"] else []) ++
        (if o.permit then ["permit"] else []) ++ (if o.flashmint then ["flashLoan"] else []) := by
  unfold pausedEntryPoints
  simp only [List.map_append, apply_ite (List.map _)]
  rfl

/-- **The guards of an entry point** of a chosen feature: its access guard, then that of pausing. -/
theorem guardsNamed_of_mem_entryPoints {o : TokenOptions} {template : FunctionTemplate}
    (h : template ∈ o.entryPoints) :
    guardsNamed template.name o.events =
      o.accessGuards template.name ++ o.pauseGuards template.name := by
  rw [guardsNamed_events, map_name_pausedEntryPoints, accessGuards, pauseGuards]
  simp only [entryPoints, EntryPoint.standard, List.mem_append, List.mem_ite_nil_right,
    List.mem_cons, List.not_mem_nil, or_false] at h
  -- one case for each entry point, with the feature that it belongs to
  rcases h with (((((((hstandard | ⟨hasked, rfl⟩) | ⟨hasked, rfl | rfl⟩) | ⟨hasked, rfl⟩) |
    ⟨hasked, rfl | rfl⟩) | ⟨hasked, rfl | rfl | rfl⟩) | ⟨hasked, rfl | rfl⟩) |
    ⟨hasked, rfl | rfl | rfl⟩) | ⟨hasked, rfl⟩
  · rcases hstandard with rfl | rfl | rfl | rfl | rfl | rfl | rfl | rfl | rfl | rfl | rfl <;>
      simp [restrictedEntryPoints, pausedNames, EntryPoint.name, EntryPoint.symbol,
        EntryPoint.totalSupply, EntryPoint.decimals, EntryPoint.balanceOf, EntryPoint.allowance,
        EntryPoint.transfer, EntryPoint.transferFrom, EntryPoint.approve,
        EntryPoint.increaseAllowance, EntryPoint.decreaseAllowance, EntryPoint.viewing,
        EntryPoint.succeeding, List.lookup_cons]
  all_goals simp [restrictedEntryPoints, pausedNames, hasked, EntryPoint.burn, EntryPoint.snapshot,
    EntryPoint.balanceOfAt, EntryPoint.mint, EntryPoint.permit, EntryPoint.nonces,
    EntryPoint.delegate, EntryPoint.delegates, EntryPoint.getVotes, EntryPoint.flashLoan,
    EntryPoint.maxFlashLoan, FunctionTemplate.paused, FunctionTemplate.pause,
    FunctionTemplate.unpause, FunctionTemplate.upgrade, EntryPoint.viewing, EntryPoint.acting,
    EntryPoint.succeeding, List.lookup_cons]

/-- Signatures tell the events of a token apart as names do. -/
theorem attachedTo_eq_guardsNamed {o : TokenOptions} {template : FunctionTemplate}
    (h : template ∈ o.entryPoints) :
    attachedTo template.signature o.events = guardsNamed template.name o.events := by
  unfold attachedTo guardsNamed
  -- both select the same events
  congr 1
  refine List.filter_congr fun event hevent => ?_
  have hall := subset_all (mem_events_iff.mp ⟨event, hevent, rfl⟩)
  rw [Bool.eq_iff_iff, beq_iff_eq, beq_iff_eq]
  constructor
  · intro hsignature
    rw [EntryPoint.eq_of_signature_eq hall (subset_all h) hsignature]
  · intro hname
    rw [EntryPoint.eq_of_name_eq hall (subset_all h) hname]

/-- **The statements of a function of a token**: its access guard, the guard of pausing, and the
call of the base module. -/
theorem statements_eq {o : TokenOptions} (h : o.validate = .ok ()) {function : ContractFunction}
    (hfunction : function ∈ o.assembled.functions) :
    ∃ base, function.template.base? = some base ∧
      function.statements =
        o.accessGuards function.template.name ++ o.pauseGuards function.template.name ++
          [ContractFunction.baseCall function.template base] := by
  have hmem := (exists_function_iff h).mp ⟨function, hfunction, rfl⟩
  have hbase : ∀ template ∈ EntryPoint.all, template.base?.isSome = true := by decide
  obtain ⟨base, hbase⟩ := Option.isSome_iff_exists.mp (hbase _ (subset_all hmem))
  -- no mixin writes code, so guards and the call are all that there is
  have hcode : function.code = [] := by
    rw [ContractFunction.code, ((composed_assembled h).closed.functions function hfunction).body]
    rfl
  have hmodifiers : function.modifiers =
      o.accessGuards function.template.name ++ o.pauseGuards function.template.name := by
    rw [functions_assembled h] at hfunction
    obtain ⟨hfunctions, -⟩ := functions_of_events fun event => change?_of_mem_events (o := o)
    rw [(hfunctions function hfunction).1, ContractFunction.signature,
      attachedTo_eq_guardsNamed hmem, guardsNamed_of_mem_entryPoints hmem]
  refine ⟨base, hbase, ?_⟩
  rw [ContractFunction.statements, hcode, hbase, hmodifiers, List.append_nil]
  rfl

end TokenOptions

/-! ## What opens like a guard -/

/-- The first letters of a statement, enough of them to tell guards from everything else. -/
def firstLetters (statement : String) : List Char :=
  statement.toList.take 15

/-- How guards open. -/
def guardOpenings : List (List Char) :=
  ["Ownable_only_ow".toList, "AccessControl_o".toList, "Pausable_when_n".toList]

theorem Guard.firstLetters_mem {guard base symbol : String} (h : Guard guard base symbol) :
    firstLetters guard ∈ guardOpenings := by
  cases h with
  | owner => decide
  | role constant =>
    have hletters : firstLetters ("AccessControl_only_role(" ++ constant ++ ")") =
        "AccessControl_o".toList := by
      rw [firstLetters, String.toList_append, String.toList_append, List.append_assoc]
      rfl
    rw [hletters]
    decide
  | notPaused => decide

/-- The letters of a call, appended as letters: what it binds comes first, then the module that it
calls. -/
def callLetters (template : FunctionTemplate) (base : String) : List Char :=
  (ContractFunction.binding template).toList ++ (base.toList ++ ("_".toList ++
    (template.name.toList ++
      ("(" ++ ", ".intercalate (template.args.map (·.name)) ++ ")").toList)))

theorem firstLetters_baseCall (template : FunctionTemplate) (base : String) :
    firstLetters (ContractFunction.baseCall template base) =
      (callLetters template base).take 15 := by
  rw [firstLetters, callLetters, ContractFunction.baseCall_eq]
  simp only [String.toList_append, List.append_assoc]

/-- No call of an entry point of a token opens like a guard. -/
theorem not_guard_baseCall {template : FunctionTemplate} (h : template ∈ EntryPoint.all)
    {base : String} (hbase : template.base? = some base) {base' symbol : String} :
    ¬ Guard (ContractFunction.baseCall template base) base' symbol := by
  have hall : ∀ template ∈ EntryPoint.all, ∀ base ∈ template.base?.toList,
      (callLetters template base).take 15 ∉ guardOpenings := by
    decide +kernel
  intro hguard
  have hletters := hguard.firstLetters_mem
  rw [firstLetters_baseCall] at hletters
  exact hall template h base (by simp [hbase]) hletters

/-- What initializes a composed contract is not guarded like a function. -/
theorem Contract.Closed.not_guard_constructors {c : Contract} (h : c.Closed) {naming : Renaming}
    {routines : List Routine} (hroutines : c.constructors naming = .ok routines) {r : Routine}
    (hr : r ∈ routines) {statement : String} (hstatement : statement ∈ r.statements.flatten)
    {base symbol : String} : ¬ Guard statement base symbol := by
  intro hguard
  have hletters := hguard.firstLetters_mem
  obtain ⟨calls, hcalls, hmem⟩ := h.initializerCalls
  have hsomewhere := (mem_statements_constructors h.hasConstructor hcalls hroutines).mp
    (List.mem_flatMap.mpr ⟨r, hr, hstatement⟩)
  rw [hmem] at hsomewhere
  -- each kind of statement opens in its own way
  rcases hsomewhere with honce | ⟨p, hp, -, hcall⟩ | hcode
  · obtain rfl := List.mem_singleton.mp (List.mem_ite_nil_right.mp honce).2
    exact absurd hletters (by decide)
  · -- the name of an initializer is long enough to tell, whatever the arguments are
    have hall : ∀ base ∈ BaseModule.library, 15 ≤ base.initializerSymbol.toList.length ∧
        firstLetters base.initializerSymbol ∉ guardOpenings := by decide
    obtain ⟨hlength, hother⟩ := hall p.base (h.known p (mem_parents.mp hp)).1
    obtain ⟨params, rfl⟩ := Parent.initializerCall_eq hcall
    rw [firstLetters, String.toList_append, String.toList_append, String.toList_append,
      List.append_assoc, List.append_assoc, List.take_append_of_le_length hlength] at hletters
    exact hother hletters
  · -- a grant is not a check of a role, though both call the same module
    obtain ⟨⟨constant, rfl⟩, -⟩ := h.granted.grants statement hcode
    have hgrant : firstLetters (grantStatement constant) = "AccessControl_g".toList := by
      unfold firstLetters grantStatement
      rw [String.toList_append, String.toList_append, List.append_assoc]
      rfl
    rw [hgrant] at hletters
    exact absurd hletters (by decide)

/-! ## Guards in the source -/

/-- A statement that lets only the owner or the holders of a role pass. -/
def AccessGuard (statement : String) : Prop :=
  statement = "Ownable_only_owner()" ∨
    ∃ constant, statement = "AccessControl_only_role(" ++ constant ++ ")"

theorem AccessGuard.guard {statement : String} (h : AccessGuard statement) :
    ∃ base ∈ ["Ownable", "AccessControl"], ∃ symbol, Guard statement base symbol := by
  rcases h with rfl | ⟨constant, rfl⟩
  · exact ⟨_, by decide, _, .owner⟩
  · exact ⟨_, by decide, _, .role constant⟩

theorem not_accessGuard_notPausedGuard : ¬ AccessGuard notPausedGuard := by
  intro h
  obtain ⟨base, hbase, symbol, hguard⟩ := h.guard
  obtain rfl := hguard.base_unique .notPaused
  exact absurd hbase (by decide)

namespace TokenOptions

variable {o : TokenOptions} {name : String}

theorem accessGuards_of_mem {role : String} (h : (name, role) ∈ restrictedEntryPoints) :
    o.accessGuards name = [o.shared.access.guardStatement role] := by
  simp only [restrictedEntryPoints, List.mem_cons, Prod.mk.injEq, List.not_mem_nil, or_false] at h
  rcases h with ⟨rfl, rfl⟩ | ⟨rfl, rfl⟩ | ⟨rfl, rfl⟩ | ⟨rfl, rfl⟩ | ⟨rfl, rfl⟩ <;> rfl

theorem accessGuards_of_notMem (h : name ∉ restrictedEntryPoints.map Prod.fst) :
    o.accessGuards name = [] := by
  have hnone : restrictedEntryPoints.lookup name = none := by
    rw [List.lookup_eq_none_iff]
    intro p hp
    rw [bne_iff_ne]
    rintro rfl
    exact h (List.mem_map_of_mem hp)
  rw [accessGuards, hnone]
  rfl

theorem notPausedGuard_notMem_accessGuards : notPausedGuard ∉ o.accessGuards name := by
  intro h
  obtain ⟨role, -, hrole⟩ := List.mem_map.mp h
  obtain ⟨symbol, hguard⟩ := o.shared.access.guard_guardStatement role
  have hbase := (hrole ▸ hguard).base_unique .notPaused
  cases hmode : o.shared.access <;> rw [hmode] at hbase <;> exact absurd hbase (by decide)

theorem not_accessGuard_pauseGuards {statement : String} (h : statement ∈ o.pauseGuards name) :
    ¬ AccessGuard statement := by
  obtain ⟨-, hguard⟩ := List.mem_ite_nil_right.mp h
  obtain rfl := List.mem_singleton.mp hguard
  exact not_accessGuard_notPausedGuard

section

variable (h : o.validate = .ok ()) {function : ContractFunction}
  (hfunction : function ∈ o.assembled.functions)
include h hfunction

/-- The statements of a function of a token, with a call that is no guard. -/
theorem statements_call :
    ∃ base, function.template.base? = some base ∧
      function.statements =
        o.accessGuards function.template.name ++ o.pauseGuards function.template.name ++
          [ContractFunction.baseCall function.template base] ∧
      ¬ AccessGuard (ContractFunction.baseCall function.template base) ∧
      ContractFunction.baseCall function.template base ≠ notPausedGuard := by
  obtain ⟨base, hbase, hstatements⟩ := statements_eq h hfunction
  have hmem := subset_all ((exists_function_iff h).mp ⟨function, hfunction, rfl⟩)
  refine ⟨base, hbase, hstatements, ?_, ?_⟩
  · intro haccess
    obtain ⟨_, -, symbol, hguard⟩ := haccess.guard
    exact not_guard_baseCall hmem hbase hguard
  · intro hpaused
    have hguard : Guard (ContractFunction.baseCall function.template base) "Pausable"
        "Pausable_when_not_paused" := by
      rw [hpaused]
      exact .notPaused
    exact not_guard_baseCall hmem hbase hguard

/-- The statements of a restricted entry point start with its access guard, the only one. -/
theorem statements_of_restricted {role : String}
    (hrole : (function.template.name, role) ∈ restrictedEntryPoints) :
    ∃ rest, function.statements = o.shared.access.guardStatement role :: rest ∧
      ∀ statement ∈ rest, ¬ AccessGuard statement := by
  obtain ⟨base, -, hstatements, hcall, -⟩ := statements_call h hfunction
  rw [accessGuards_of_mem hrole] at hstatements
  refine ⟨_, hstatements, fun statement hstatement => ?_⟩
  rcases List.mem_append.mp hstatement with hpaused | hlast
  · exact not_accessGuard_pauseGuards hpaused
  · obtain rfl := List.mem_singleton.mp hlast
    exact hcall

/-- No other function has an access guard. -/
theorem not_accessGuard_of_unrestricted
    (hname : function.template.name ∉ restrictedEntryPoints.map Prod.fst) {statement : String}
    (hstatement : statement ∈ function.statements) : ¬ AccessGuard statement := by
  obtain ⟨base, -, hstatements, hcall, -⟩ := statements_call h hfunction
  rw [hstatements, accessGuards_of_notMem hname, List.nil_append] at hstatement
  rcases List.mem_append.mp hstatement with hpaused | hlast
  · exact not_accessGuard_pauseGuards hpaused
  · obtain rfl := List.mem_singleton.mp hlast
    exact hcall

/-- The statements of an entry point to be paused end with the guard and the call. -/
theorem statements_of_paused (hpausable : o.pausable = true)
    (hname : function.template.name ∈ pausedNames) :
    ∃ before base, function.template.base? = some base ∧
      function.statements =
        before ++ [notPausedGuard, ContractFunction.baseCall function.template base] ∧
      notPausedGuard ∉ before ∧
      ContractFunction.baseCall function.template base ≠ notPausedGuard := by
  obtain ⟨base, hbase, hstatements, -, hcall⟩ := statements_call h hfunction
  rw [pauseGuards, if_pos ⟨hpausable, hname⟩, List.append_assoc] at hstatements
  exact ⟨_, base, hbase, hstatements, notPausedGuard_notMem_accessGuards, hcall⟩

/-- No other function has the guard of pausing. -/
theorem notPausedGuard_notMem_statements
    (hpausing : o.pausable = false ∨ function.template.name ∉ pausedNames) :
    notPausedGuard ∉ function.statements := by
  obtain ⟨base, -, hstatements, -, hcall⟩ := statements_call h hfunction
  have hnot : ¬ (o.pausable = true ∧ function.template.name ∈ pausedNames) := by
    rintro ⟨hpausable, hname⟩
    rcases hpausing with hoff | hother
    · exact absurd (hoff.symm.trans hpausable) (by decide)
    · exact hother hname
  rw [hstatements, pauseGuards, if_neg hnot, List.append_nil]
  intro hmem
  rcases List.mem_append.mp hmem with haccess | hlast
  · exact notPausedGuard_notMem_accessGuards haccess
  · exact hcall (List.mem_singleton.mp hlast).symm

end

/-- Pausing registers three entry points of its own. -/
theorem entryPoints_without_pausing {template : FunctionTemplate} (h : template ∈ o.entryPoints) :
    template ∈ [.paused, .pause, .unpause] ∨
      template ∈ ({ o with pausable := false } : TokenOptions).entryPoints := by
  rcases List.mem_append.mp h with hmem | hupgrade
  · rcases List.mem_append.mp hmem with hfeature | hpausing
    · exact .inr (List.mem_append_left _ (List.mem_append_left _ hfeature))
    · exact .inl (List.mem_ite_nil_right.mp hpausing).2
  · exact .inr (List.mem_append_right _ hupgrade)

/-- **Guards of a token.** Valid options have a source, which is its front and one section for each
function of the contract. In it
* the statements of `mint`, `snapshot`, `pause`, `unpause` and `upgrade` start with the access guard
  of the mode and the role, and no other statement, be it of a function or of what initializes the
  contract, is an access guard;
* if the token can be paused, the statements of every entry point to be paused end with the guard
  of pausing and the call of the base module, and the guard stands nowhere else;
* a function is there exactly when a chosen feature registers it, and pausing adds its own three
  functions only. -/
theorem source_guards (h : o.validate = .ok ()) :
    ∃ c d, o.build = .ok c ∧ c.document {} = .ok d ∧ (Request.token o).source = .ok d.render ∧
      d.render = "\n".intercalate ([""].intercalate
        ((d.front.filter (!·.isEmpty)).map Layout.rows ++
          d.functionSections.map Layout.rows)) ++ "\n" ∧
      (d.withCode ++ d.guarded ++ d.passThrough).Perm
        (c.functions.map (ContractFunction.routine {})) ∧
      (∀ function ∈ c.functions,
        Layout.rows (function.routine {}).layout =
          (function.routine {}).opening ++
            (function.statements ++ [(function.routine {}).returnStatement]).map ("    " ++ ·) ++
            ["end"]) ∧
      (∀ function ∈ c.functions, ∀ role, (function.template.name, role) ∈ restrictedEntryPoints →
        ∃ rest,
          function.statements =
            (match o.shared.access with
              | .ownable => "Ownable_only_owner()"
              | .roles => "AccessControl_only_role(" ++ (role ++ "_ROLE") ++ ")") :: rest ∧
          ∀ statement ∈ rest, ¬ AccessGuard statement) ∧
      (∀ function ∈ c.functions,
        function.template.name ∉ restrictedEntryPoints.map Prod.fst →
          ∀ statement ∈ function.statements, ¬ AccessGuard statement) ∧
      (∀ r ∈ d.constructors, ∀ statement ∈ r.statements.flatten,
        ¬ AccessGuard statement ∧ statement ≠ "Pausable_when_not_paused()") ∧
      (∀ function ∈ c.functions, o.pausable = true → function.template.name ∈ pausedNames →
        ∃ before base, function.template.base? = some base ∧
          function.statements =
            before ++ ["Pausable_when_not_paused()",
              ContractFunction.baseCall function.template base] ∧
          "Pausable_when_not_paused()" ∉ before ∧
          ContractFunction.baseCall function.template base ≠ "Pausable_when_not_paused()") ∧
      (∀ function ∈ c.functions, o.pausable = false ∨ function.template.name ∉ pausedNames →
        "Pausable_when_not_paused()" ∉ function.statements) ∧
      (∀ template, (∃ function ∈ c.functions, function.template = template) ↔
        template ∈ o.entryPoints) ∧
      ∀ function ∈ c.functions, function.template ∈ [.paused, .pause, .unpause] ∨
        function.template ∈ ({ o with pausable := false } : TokenOptions).entryPoints := by
  have hclosed := (composed_assembled h).closed
  obtain ⟨d, hd, -⟩ := hclosed.document {}
  refine ⟨o.assembled, d, build_eq h, hd, ?_, d.render_eq, Contract.routines_perm hd,
    fun function _ => function.rows_routine {}, ?_, ?_, ?_, ?_, ?_,
    fun template => exists_function_iff h, ?_⟩
  · have hsource : o.assembled.source {} = .ok d.render :=
      Contract.source_eq_ok_iff.mpr ⟨d, hd, rfl⟩
    rw [Request.source, Request.build, build_eq h]
    exact hsource
  · -- access guards come first
    intro function hfunction role hrole
    obtain ⟨rest, hstatements, hrest⟩ := statements_of_restricted h hfunction hrole
    refine ⟨rest, ?_, hrest⟩
    rw [hstatements]
    cases o.shared.access <;> rfl
  · intro function hfunction hname statement hstatement
    exact not_accessGuard_of_unrestricted h hfunction hname hstatement
  · -- neither guard stands in what initializes the contract
    intro r hr statement hstatement
    obtain ⟨routines, hroutines, rfl⟩ := Contract.document_eq_ok_iff.mp hd
    refine ⟨?_, ?_⟩
    · intro haccess
      obtain ⟨_, -, symbol, hguard⟩ := haccess.guard
      exact hclosed.not_guard_constructors hroutines hr hstatement hguard
    · rintro rfl
      exact hclosed.not_guard_constructors hroutines hr hstatement .notPaused
  -- the guard of pausing, and the functions that pausing adds
  · intro function hfunction hpausable hname
    exact statements_of_paused h hfunction hpausable hname
  · intro function hfunction hpausing
    exact notPausedGuard_notMem_statements h hfunction hpausing
  · intro function hfunction
    exact entryPoints_without_pausing ((exists_function_iff h).mp ⟨function, hfunction, rfl⟩)

/-- Who mints a token that can be paused needs the role for it, and cannot while it is paused. -/
theorem source_guards_of_mintable :
    ∃ c, ({ mintable := true, pausable := true, shared := { access := .roles } } :
        TokenOptions).build = .ok c ∧
      ∃ function ∈ c.functions, function.template = EntryPoint.mint ∧
        (∃ rest, function.statements = "AccessControl_only_role(MINTER_ROLE)" :: rest) ∧
        ∃ before, function.statements =
          before ++ ["Pausable_when_not_paused()", "ERC20_mint(to, amount)"] := by
  obtain ⟨c, d, hbuild, -, -, -, -, -, haccess, -, -, hpaused, -, hprinted, -⟩ :=
    source_guards (o := { mintable := true, pausable := true, shared := { access := .roles } }) rfl
  obtain ⟨function, hfunction, hmint⟩ := (hprinted EntryPoint.mint).mpr (by decide)
  obtain ⟨rest, hfirst, -⟩ := haccess function hfunction "MINTER" (by rw [hmint]; decide)
  obtain ⟨before, base, hbase, hlast, -⟩ :=
    hpaused function hfunction rfl (by rw [hmint]; decide)
  refine ⟨c, hbuild, function, hfunction, hmint, ⟨rest, hfirst⟩, before, ?_⟩
  rw [hmint] at hbase hlast
  obtain rfl := Option.some.inj hbase
  exact hlast

end TokenOptions

end CairoForge
