import CairoForge.Proofs.RegistryHistory
import CairoForge.Proofs.TokenGuards

/-!
# Places of functions

Functions are registered under their signatures, and a registered function never moves. So every
call of a run that is about a function has one place among the functions, which it writes, and
leaves all others as they are. Two calls have one place just if their templates have one name and
the same names of arguments, whatever else is in the templates and whatever is called between them.

## Main definitions

* `Registry.place` — the place of a key.
* `Contract.place` — the place of the function that a template stands for.
* `Operation.given` — the templates that an operation is given.

## Main results

* `Registry.toList_put`, `Registry.place_put_of_contains` — a write changes one place, and keys stay
  where they are.
* `Contract.flatMap_events_calls` — a run and its calls have the same events.
* `Contract.functions_attempt_of_events` — what one call leaves of the functions.
* `Contract.place_run_eq_iff` — when two calls of a run have one place.
* `Contract.signatures_identify` — signatures identify functions.
-/

namespace CairoForge

/-! ## Places in registries -/

namespace Registry

variable {α : Type} {key : α → String}

/-- The place of a key among the values, behind the last one if the key is free. -/
def place (r : Registry α key) (k : String) : Nat :=
  r.keys.idxOf k

theorem putIn_eq (a : α) (l : List α) :
    putIn key a l =
      l.take ((l.map key).idxOf (key a)) ++ a :: l.drop ((l.map key).idxOf (key a) + 1) := by
  induction l with
  | nil => rfl
  | cons b rest ih =>
    by_cases h : key b = key a
    · simp [putIn, h]
    · simp [putIn, h, ih, List.idxOf_cons_ne _ h]

/-- What is found under a key is what stands in its place. -/
theorem getElem?_place (r : Registry α key) (k : String) : r.toList[r.place k]? = r.find? k := by
  have hplace : ∀ l : List α, l[(l.map key).idxOf k]? = l.find? (key · == k) := by
    intro l
    induction l with
    | nil => rfl
    | cons b rest ih =>
      by_cases h : key b = k
      · simp [h]
      · simp [h, ih, List.idxOf_cons_ne _ h]
  exact hplace r.toList

/-- **A write changes one place**, that of its key. -/
theorem toList_put (r : Registry α key) (a : α) :
    (r.put a).toList =
      r.toList.take (r.place (key a)) ++ a :: r.toList.drop (r.place (key a) + 1) :=
  putIn_eq a r.toList

/-- A key that is taken stays where it is. -/
theorem place_put_of_contains {r : Registry α key} {k : String} (h : r.contains k = true) (a : α) :
    (r.put a).place k = r.place k := by
  rw [place, keys_put]
  split
  · rfl
  · exact List.idxOf_append_of_mem ((r.contains_iff_mem_keys k).mp h)

/-- What is written stands in the place that its key had before. -/
theorem place_put_self (r : Registry α key) (a : α) :
    (r.put a).place (key a) = r.place (key a) := by
  by_cases h : r.contains (key a) = true
  · exact place_put_of_contains h a
  · -- a free key comes behind the others
    have hnotMem : key a ∉ r.keys := mt (r.contains_iff_mem_keys _).mpr h
    rw [place, keys_put, if_neg h, List.idxOf_append_of_notMem hnotMem, place,
      List.idxOf_eq_length_iff.mpr hnotMem, List.idxOf_cons_self, Nat.add_zero]

/-- Keys have places of their own. -/
theorem place_eq_iff {r : Registry α key} {k k' : String} (h : r.contains k = true) :
    r.place k = r.place k' ↔ k = k' :=
  List.idxOf_inj ((r.contains_iff_mem_keys k).mp h)

end Registry

/-! ## Templates of a run -/

/-- The templates that an operation is given. -/
def Operation.given : Operation → List FunctionTemplate
  | addFunction template | addModifier _ template | addCode _ template | setBody _ template =>
    [template]
  | restrict entry _ _ => [entry]
  | makePausable _ entries => entries
  | _ => []

/-- An operation is about what it is given, and features about entry points of theirs. -/
theorem Operation.given_or_all_of_mem_events {operation : Operation}
    {event : FunctionTemplate × FunctionEvent} (hevent : event ∈ operation.events) :
    event.1 ∈ operation.given ∨ event.1 ∈ EntryPoint.all := by
  have hfeature : ∀ template ∈ [FunctionTemplate.paused, .pause, .unpause, .upgrade],
      template ∈ EntryPoint.all := fun template htemplate => List.mem_append_right _ htemplate
  -- entry points are those of the call, or those that features always have
  cases operation with
  | addFunction template | addModifier modifier template | addCode line template
  | setBody lines template | restrict entry mode role =>
    obtain rfl := List.mem_singleton.mp hevent
    exact .inl List.mem_cons_self
  | makePausable mode entries =>
    simp only [events, List.mem_append, List.mem_map, List.mem_cons, List.not_mem_nil,
      or_false] at hevent
    rcases hevent with ⟨entry, hentry, rfl⟩ | rfl | rfl | rfl
    · exact .inl hentry
    · exact .inr (hfeature _ (by simp))
    · exact .inr (hfeature _ (by simp))
    · exact .inr (hfeature _ (by simp))
  | makeUpgradeable upgradeable mode =>
    obtain ⟨-, hguard⟩ := List.mem_ite_nil_right.mp hevent
    obtain rfl := List.mem_singleton.mp hguard
    exact .inr (hfeature _ (by simp))
  | _ => cases hevent

/-- A call is about one function at most. -/
theorem Operation.events_eq_nil_or_singleton {call : Operation} (h : call.isFeature = false) :
    call.events = [] ∨ ∃ event, call.events = [event] := by
  cases call with
  | addFunction | addModifier | addCode | setBody => exact .inr ⟨_, rfl⟩
  | restrict | makePausable | makeUpgradeable | describe => cases h
  | _ => exact .inl rfl

namespace Contract

/-- The parts of an operation have its events. -/
theorem flatMap_events_parts (operation : Operation) :
    operation.parts.flatMap Operation.events = operation.events := by
  cases operation with
  | makePausable mode entries =>
    have hentries : (entries.map (Operation.addModifier notPausedGuard)).flatMap Operation.events =
        entries.map fun entry => (entry, .attach notPausedGuard) := by
      rw [List.flatMap_map, ← List.flatMap_singleton' entries, List.map_flatMap,
        List.flatMap_singleton']
      rfl
    rw [Operation.parts, List.cons_append, List.flatMap_cons, List.flatMap_append, hentries]
    rfl
  | makeUpgradeable upgradeable mode => cases upgradeable <;> rfl
  | describe info =>
    simp only [Operation.parts, List.flatMap_append]
    split <;> split <;> rfl
  | _ => rfl

/-- A guard is about its entry point. -/
theorem flatMap_events_guardCalls (c : Contract) (entry : FunctionTemplate) (mode : AccessMode)
    (role : String) :
    (c.guardCalls entry mode role).flatMap Operation.events =
      [(entry, .attach (mode.guardStatement role))] := by
  cases mode with
  | ownable =>
    simp only [guardCalls]
    split <;> rfl
  | roles =>
    simp only [guardCalls]
    split <;> split <;> rfl

theorem flatMap_events_partCalls (c : Contract) (parts : List Operation) :
    (c.partCalls parts).flatMap Operation.events = parts.flatMap Operation.events := by
  induction parts generalizing c with
  | nil => rfl
  | cons part rest ih =>
    cases part with
    -- only guards are taken apart
    | restrict entry mode role =>
      rw [partCalls, List.flatMap_append, flatMap_events_guardCalls, ih]
      rfl
    | _ =>
      rw [partCalls, List.flatMap_cons, List.flatMap_cons, ih]
      simp

/-- **A run and its calls have the same events.** -/
theorem flatMap_events_calls (c : Contract) (operations : List Operation) :
    (c.calls operations).flatMap Operation.events = operations.flatMap Operation.events := by
  rw [calls, flatMap_events_partCalls, List.flatMap_assoc]
  exact List.flatMap_congr fun operation _ => flatMap_events_parts operation

/-- A run whose templates are well named is about well named templates only. -/
theorem wellNamed_of_mem_events {operations : List Operation}
    (hgiven : ∀ operation ∈ operations, ∀ template ∈ operation.given, template.WellNamed)
    {event : FunctionTemplate × FunctionEvent}
    (hevent : event ∈ operations.flatMap Operation.events) : event.1.WellNamed := by
  obtain ⟨operation, hoperation, hevent⟩ := List.mem_flatMap.mp hevent
  rcases Operation.given_or_all_of_mem_events hevent with hmem | hmem
  · exact hgiven operation hoperation _ hmem
  · exact EntryPoint.wellNamed_of_mem_all _ hmem

end Contract

/-! ## Places of calls -/

/-- A function that is there stays where it is. -/
theorem place_foldl_writeEvent {functions : Registry ContractFunction ContractFunction.signature}
    {events : List (FunctionTemplate × FunctionEvent)} {signature : String}
    (h : functions.contains signature = true) :
    (events.foldl writeEvent functions).place signature = functions.place signature := by
  induction events generalizing functions with
  | nil => rfl
  | cons event rest ih =>
    have hstill : (writeEvent functions event).contains signature = true := by
      rw [writeEvent, Registry.contains_put, h, Bool.or_true]
    rw [List.foldl_cons, ih hstill, writeEvent, Registry.place_put_of_contains h]

namespace Contract

variable {c : Contract} {call : Operation}

/-- The place of the function that a template stands for, behind the last one if the function was
not mentioned yet. -/
def place (c : Contract) (template : FunctionTemplate) : Nat :=
  c.functionRegistry.place template.signature

/-- **What one call leaves** of the functions: it writes one of them in its place, or none. -/
theorem functions_attempt_of_events {template : FunctionTemplate} {event : FunctionEvent}
    (h : call.events = [(template, event)]) :
    (call.attempt c).contract.functions =
      c.functions.take (c.place template) ++ event.leave (c.functionOrFresh template) ::
        c.functions.drop (c.place template + 1) := by
  have hput := Registry.toList_put c.functionRegistry (event.leave (c.functionOrFresh template))
  rw [FunctionEvent.signature_leave, signature_functionOrFresh] at hput
  rw [functions, functionRegistry_attempt, h]
  exact hput

theorem functionRegistry_run (c : Contract) (operations : List Operation) :
    (c.run operations).functionRegistry =
      (operations.flatMap Operation.events).foldl writeEvent c.functionRegistry := by
  induction operations generalizing c with
  | nil => rfl
  | cons operation rest ih =>
    rw [run_cons, ih, functionRegistry_attempt, List.flatMap_cons, List.foldl_append]

/-- **When two calls have one place.** Whatever is called between them, they have one place just if
their templates have one signature. -/
theorem place_run_eq_iff {s t : FunctionTemplate} {event : FunctionEvent}
    (h : call.events = [(s, event)]) (between : List Operation) :
    c.place s = (c.run (call :: between)).place t ↔ s.signature = t.signature := by
  have hfirst : (call.attempt c).contract.functionRegistry =
      writeEvent c.functionRegistry (s, event) := by
    rw [functionRegistry_attempt, h]
    rfl
  -- the first call takes the place, and its function never moves again
  have hsignature : (event.leave (functionAt c.functionRegistry s)).signature = s.signature := by
    rw [FunctionEvent.signature_leave, signature_functionAt]
  have hmentioned : (call.attempt c).contract.functionRegistry.contains s.signature = true := by
    rw [hfirst, writeEvent, Registry.contains_put, hsignature, beq_self_eq_true, Bool.true_or]
  have hplace : (call.attempt c).contract.functionRegistry.place s.signature = c.place s := by
    have hself := Registry.place_put_self c.functionRegistry
      (event.leave (functionAt c.functionRegistry s))
    rw [hsignature] at hself
    rw [hfirst]
    exact hself
  have hstill : (c.run (call :: between)).functionRegistry.contains s.signature = true := by
    rw [run_cons, functionRegistry_run, contains_foldl_writeEvent, hmentioned, Bool.or_true]
  have hkept : (c.run (call :: between)).functionRegistry.place s.signature = c.place s := by
    rw [run_cons, functionRegistry_run, place_foldl_writeEvent hmentioned, hplace]
  rw [← hkept]
  exact Registry.place_eq_iff hstill

/-! ## Functions by name -/

/-- The functions of a run have well named templates if all of its events have. -/
theorem wellNamed_functions_run (title : String) {operations : List Operation}
    (hevents : ∀ event ∈ operations.flatMap Operation.events, event.1.WellNamed) :
    ∀ function ∈ ((Contract.new title).run operations).functions, function.template.WellNamed := by
  rw [functions, functionRegistry_run]
  refine forall_foldl_writeEvent (fun function hnone => absurd hnone List.not_mem_nil)
    fun event hevent function hfunction => ?_
  rw [FunctionEvent.template_leave]
  rcases hfunction with hfunction | rfl
  · exact hfunction
  · exact hevents event hevent

/-- What is found by a template is the function of its names. -/
theorem function?_eq_some_iff_namedLike {template : FunctionTemplate} {function : ContractFunction}
    (hfunctions : ∀ function ∈ c.functions, function.template.WellNamed)
    (htemplate : template.WellNamed) :
    c.function? template = some function ↔
      function ∈ c.functions ∧ function.template.NamedLike template := by
  rw [function?, Registry.find?_eq_some_iff]
  exact and_congr_right fun hmem =>
    FunctionTemplate.signature_eq_iff (hfunctions function hmem) htemplate

theorem functionOrFresh_namedLike {template : FunctionTemplate}
    (hfunctions : ∀ function ∈ c.functions, function.template.WellNamed)
    (htemplate : template.WellNamed) :
    (c.functionOrFresh template).template.NamedLike template := by
  rw [functionOrFresh]
  cases hfind : c.function? template with
  | none => exact ⟨rfl, rfl⟩
  | some found => exact ((function?_eq_some_iff_namedLike hfunctions htemplate).mp hfind).2

/-- Functions differ by name or by the names of their arguments. -/
theorem pairwise_functions_not_namedLike (c : Contract) :
    c.functions.Pairwise fun f g => ¬f.template.NamedLike g.template :=
  (List.pairwise_map.mp c.functionRegistry.nodup_keys).imp fun hsignature hnamed =>
    hsignature hnamed.signature_eq

/-- **Signatures identify functions.** Well named templates, as those of a token are, have one
signature just if they have one name and the same names of arguments. So after a run on such
templates no two functions agree in these, and a template finds the function that agrees with it in
these. Each call of the run writes the function in one place or none: the function that stands
there, or a fresh one behind the others, agrees with the template of the call, and all other places
stay as they are. Two calls have one place just if their templates agree, whatever is called between
them. -/
theorem signatures_identify (title : String) {operations : List Operation}
    (hgiven : ∀ operation ∈ operations, ∀ template ∈ operation.given, template.WellNamed) :
    let start := Contract.new title
    let c := start.run operations
    let calls := start.calls operations
    (∀ s t : FunctionTemplate, s.WellNamed → t.WellNamed →
      (s.signature = t.signature ↔
        s.name = t.name ∧ s.args.map (·.name) = t.args.map (·.name))) ∧
    (∀ template ∈ EntryPoint.all, template.WellNamed) ∧
    c = start.run calls ∧
    (∀ before call after, calls = before ++ call :: after →
      let c := start.run before
      let left := (call.attempt c).contract
      (call.events = [] ∧ left.functions = c.functions) ∨
      ∃ template event, call.events = [(template, event)] ∧
        (c.functionOrFresh template).template.NamedLike template ∧
        c.functions[c.place template]? = c.function? template ∧
        left.functions =
          c.functions.take (c.place template) ++ event.leave (c.functionOrFresh template) ::
            c.functions.drop (c.place template + 1)) ∧
    (∀ before call between other after, calls = before ++ call :: between ++ other :: after →
      ∀ s event t event', call.events = [(s, event)] → other.events = [(t, event')] →
        ((start.run before).place s = (start.run (before ++ call :: between)).place t ↔
          s.NamedLike t)) ∧
    (c.functions.Pairwise fun f g => ¬f.template.NamedLike g.template) ∧
    ∀ template, template.WellNamed → ∀ function,
      (c.function? template = some function ↔
        function ∈ c.functions ∧ function.template.NamedLike template) := by
  intro start c calls
  have hrun : c = start.run calls := (run_calls start operations).symm
  have hevents : ∀ event ∈ calls.flatMap Operation.events, event.1.WellNamed := by
    intro event hevent
    rw [flatMap_events_calls] at hevent
    exact wellNamed_of_mem_events hgiven hevent
  have hfunctions : ∀ function ∈ c.functions, function.template.WellNamed :=
    wellNamed_functions_run title fun event => wellNamed_of_mem_events hgiven
  -- what holds of the events of all calls holds of those before and of a call itself
  have hcall : ∀ call ∈ calls, ∀ event ∈ call.events, event.1.WellNamed :=
    fun call hmem event hevent => hevents event (List.mem_flatMap.mpr ⟨call, hmem, hevent⟩)
  refine ⟨fun s t hs ht => FunctionTemplate.signature_eq_iff hs ht,
    EntryPoint.wellNamed_of_mem_all, hrun, ?_, ?_, c.pairwise_functions_not_namedLike,
    fun template htemplate function => function?_eq_some_iff_namedLike hfunctions htemplate⟩
  · intro before call after hsplit c left
    have hmem : call ∈ calls := hsplit ▸ List.mem_append_cons_self
    rcases Operation.events_eq_nil_or_singleton (isFeature_of_mem_calls hmem) with
      hnone | ⟨⟨template, event⟩, hone⟩
    · refine .inl ⟨hnone, ?_⟩
      rw [functions, functionRegistry_attempt, hnone]
      rfl
    · have hbefore : ∀ event ∈ before.flatMap Operation.events, event.1.WellNamed := by
        intro event hevent
        obtain ⟨other, hother, hevent⟩ := List.mem_flatMap.mp hevent
        exact hcall other (hsplit ▸ List.mem_append_left _ hother) event hevent
      have htemplate : template.WellNamed := hcall call hmem (template, event) (by simp [hone])
      exact .inr ⟨template, event, hone,
        functionOrFresh_namedLike (wellNamed_functions_run title hbefore) htemplate,
        c.functionRegistry.getElem?_place template.signature, functions_attempt_of_events hone⟩
  · intro before call between other after hsplit s event t event' hs ht
    have hswell : s.WellNamed := hcall call (by simp [hsplit]) (s, event) (by simp [hs])
    have htwell : t.WellNamed := hcall other (by simp [hsplit]) (t, event') (by simp [ht])
    rw [run_append, place_run_eq_iff hs]
    exact FunctionTemplate.signature_eq_iff hswell htwell

/-- Three functions called `swap`: the first and the last agree in the names of their arguments and
in nothing else, and the one that is guarded between them has one argument less. -/
theorem signatures_identify_of_overloads :
    let felts : FunctionTemplate :=
      { name := "swap", args := [⟨"amount)", some "felt"⟩, ⟨"(to", none⟩] }
    let wides : FunctionTemplate :=
      { base? := some "Pool", name := "swap", kind? := some .view,
        args := [⟨"amount)", some "Uint256"⟩, ⟨"(to", some "felt"⟩] }
    let short : FunctionTemplate := { name := "swap", args := [⟨"amount)", some "felt"⟩] }
    let start := Contract.new "Exchange"
    let paused : List Operation :=
      [.addFunction .paused, .addParent .ownable [.literal "owner"], .addConstructorArg .owner,
        .addModifier "Ownable_only_owner()" .pause, .addParent .ownable [.literal "owner"],
        .addModifier "Ownable_only_owner()" .unpause]
    let operations : List Operation :=
      [.addFunction felts, .makePausable .ownable [short], .addModifier "only_pool()" wides]
    let first : List Operation := [.addFunction felts, .addParent .pausable []]
    let calls := first ++ .addModifier notPausedGuard short :: paused
    (∀ operation ∈ operations, ∀ template ∈ operation.given, template.WellNamed) ∧
      start.calls operations = calls ++ [.addModifier "only_pool()" wides] ∧
      start.place felts = (start.run calls).place wides ∧
      (start.run first).place short ≠ (start.run calls).place wides := by
  intro felts wides short start paused operations first calls
  have hgiven : ∀ operation ∈ operations, ∀ template ∈ operation.given, template.WellNamed := by
    decide +kernel
  have hcalls : start.calls operations = calls ++ [.addModifier "only_pool()" wides] := rfl
  obtain ⟨-, -, -, -, hplaces, -, -⟩ := signatures_identify "Exchange" hgiven
  refine ⟨hgiven, hcalls, ?_, ?_⟩
  · have hnamed : felts.NamedLike wides := by decide
    exact (hplaces [] _ _ _ [] hcalls felts _ wides _ rfl rfl).mpr hnamed
  · have hnamed : ¬short.NamedLike wides := by decide
    exact mt (hplaces first _ paused _ [] hcalls short _ wides _ rfl rfl).mp hnamed

end Contract

end CairoForge
