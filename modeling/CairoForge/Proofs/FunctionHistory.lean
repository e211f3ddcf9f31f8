import CairoForge.Contract.Operation
import Mathlib.Tactic.Common

/-!
# Functions and their history

Every operation of a run leaves an entry in a log for each function that it is about: the
template it was given, what was to happen to the function, and whether that was accepted. The
functions of the contract at the end of the run can be read off the log alone.

## Main definitions

* `FunctionEvent`, `LogEntry`, `Contract.log` — what a run does to functions, entry by entry.
* `FunctionBody.Records` — the body that a sequence of accepted changes leaves.
* `ContractFunction.RecordedIn` — a function is what its entries in a log say.
* `Replays` — a registry of functions is what a log says.

## Main results

* `Replays.write` — one more entry and the write that belongs to it.
* `Contract.functionRegistry_attempt` — an operation writes its events.
* `replays_run` — the functions after a run replay the log of the run.
* `Contract.functions_run` — the same spelled out, with the exact reasons for which an operation
  on a body is refused.
-/

namespace CairoForge

/-! ## Events -/

/-- A change of a body. -/
inductive BodyChange where
  /-- One more line. -/
  | append (line : String)
  /-- The body as a whole. -/
  | fix (lines : List String)
  deriving DecidableEq

/-- The body after a change, none if the change is refused. -/
def BodyChange.after? : BodyChange → FunctionBody → Option FunctionBody
  | append line, body => body.append? line
  | fix lines, body => body.fix? lines

/-- What is to happen to a function. -/
inductive FunctionEvent where
  /-- It is mentioned and stays as it is. -/
  | mention
  | attach (modifier : String)
  /-- Its body is to change. -/
  | alter (change : BodyChange)

namespace FunctionEvent

/-- The modifier that is attached, if one is. -/
def modifier? : FunctionEvent → Option String
  | attach modifier => some modifier
  | _ => none

/-- The change of the body, if there is one. -/
def change? : FunctionEvent → Option BodyChange
  | alter change => some change
  | _ => none

/-- The function after an event; a refused change of its body leaves it as it was. -/
def leave (function : ContractFunction) : FunctionEvent → ContractFunction
  | mention => function
  | attach modifier => function.attach modifier
  | alter change => { function with body := (change.after? function.body).getD function.body }

@[simp] theorem signature_leave (function : ContractFunction) (event : FunctionEvent) :
    (event.leave function).signature = function.signature := by
  cases event <;> rfl

@[simp] theorem template_leave (function : ContractFunction) (event : FunctionEvent) :
    (event.leave function).template = function.template := by
  cases event <;> rfl

theorem modifiers_leave (function : ContractFunction) (event : FunctionEvent) :
    (event.leave function).modifiers =
      function.modifiers ++ [event].filterMap FunctionEvent.modifier? := by
  cases event <;> simp [leave, modifier?, ContractFunction.attach]

end FunctionEvent

/-! ## Logs -/

/-- An entry of a log. -/
structure LogEntry where
  /-- The template that stands for the function. -/
  template : FunctionTemplate
  event : FunctionEvent
  accepted : Bool

namespace LogEntry

/-- The signature of the function that the entry is about. -/
def signature (entry : LogEntry) : String :=
  entry.template.signature

/-- The change of a body that the entry tells of, if it was accepted. -/
def acceptedChange? (entry : LogEntry) : Option BodyChange :=
  if entry.accepted then entry.event.change? else none

end LogEntry

/-- The templates that an operation mentions, in order, each with what is to happen to its
function. -/
def Operation.events : Operation → List (FunctionTemplate × FunctionEvent)
  | addFunction template => [(template, .mention)]
  | addModifier modifier template => [(template, .attach modifier)]
  | addCode line template => [(template, .alter (.append line))]
  | setBody lines template => [(template, .alter (.fix lines))]
  | restrict entry mode role => [(entry, .attach (mode.guardStatement role))]
  | makePausable mode entries =>
    entries.map (fun entry => (entry, .attach notPausedGuard)) ++
      [(.paused, .mention),
        (.pause, .attach (mode.guardStatement "PAUSER")),
        (.unpause, .attach (mode.guardStatement "PAUSER"))]
  | makeUpgradeable upgradeable mode =>
    if upgradeable then [(.upgrade, .attach (mode.guardStatement "UPGRADER"))] else []
  | _ => []

/-- Is the operation about the body of a function? -/
def Operation.changesBody : Operation → Bool
  | addCode .. | setBody .. => true
  | _ => false

/-- Only an operation that is about a body has an event that changes one. -/
theorem Operation.change?_of_mem_events {operation : Operation}
    (h : operation.changesBody = false) {event : FunctionTemplate × FunctionEvent}
    (hevent : event ∈ operation.events) : event.2.change? = none := by
  cases operation with
  | addCode line template => cases h
  | setBody lines template => cases h
  | makePausable mode entries =>
    simp only [events, List.mem_append, List.mem_map, List.mem_cons, List.not_mem_nil,
      or_false] at hevent
    rcases hevent with ⟨entry, -, rfl⟩ | rfl | rfl | rfl <;> rfl
  | makeUpgradeable upgradeable mode =>
    obtain ⟨-, hguard⟩ := List.mem_ite_nil_right.mp hevent
    obtain rfl := List.mem_singleton.mp hguard
    rfl
  | addFunction template | addModifier modifier template | restrict entry mode role =>
    obtain rfl := List.mem_singleton.mp hevent
    rfl
  | _ => cases hevent

namespace Contract

/-- The entries of one operation. All of them are accepted or refused as the operation is. -/
def entriesOf (c : Contract) (operation : Operation) : List LogEntry :=
  operation.events.map fun event =>
    { template := event.1, event := event.2,
      accepted := (operation.attempt c).refusal?.isNone }

/-- The log of a run. -/
def log (c : Contract) : List Operation → List LogEntry
  | [] => []
  | operation :: rest => c.entriesOf operation ++ (operation.attempt c).contract.log rest

end Contract

/-- The entries about one signature. -/
def entriesFor (signature : String) (log : List LogEntry) : List LogEntry :=
  log.filter (·.signature == signature)

/-- The modifiers attached to a signature, in order. -/
def modifiersFor (signature : String) (log : List LogEntry) : List String :=
  (entriesFor signature log).filterMap (·.event.modifier?)

/-- The modifiers that events attach to a signature, in order. -/
def attachedTo (signature : String) (events : List (FunctionTemplate × FunctionEvent)) :
    List String :=
  (events.filter (·.1.signature == signature)).filterMap (·.2.modifier?)

/-- The accepted changes of the body of a signature, in order. -/
def changesFor (signature : String) (log : List LogEntry) : List BodyChange :=
  (entriesFor signature log).filterMap (·.acceptedChange?)

/-! ## What a log says -/

/-- The body that accepted changes leave: none leave it empty, and otherwise either all of them
are lines, which are collected in order, or the only one sets the body as a whole. -/
inductive FunctionBody.Records : List BodyChange → FunctionBody → Prop
  | empty : Records [] .empty
  | accumulating {lines : List String} (h : lines ≠ []) :
      Records (lines.map .append) (.accumulating lines)
  | finalized (lines : List String) : Records [.fix lines] (.finalized lines)

/-- A function is what its entries in a log say: its template is the first one, its modifiers
are all that were attached, and its body records the accepted changes. -/
structure ContractFunction.RecordedIn (log : List LogEntry) (function : ContractFunction) :
    Prop where
  template : (entriesFor function.signature log).head?.map (·.template) = some function.template
  modifiers : function.modifiers = modifiersFor function.signature log
  body : function.body.Records (changesFor function.signature log)

/-- A registry of functions is what a log says: one function for each signature, in order of
first mention. -/
structure Replays (log : List LogEntry)
    (functions : Registry ContractFunction ContractFunction.signature) : Prop where
  keys : functions.keys = (log.map LogEntry.signature).eraseDups
  recorded : ∀ function ∈ functions.toList, function.RecordedIn log

/-! ## One entry and its write -/

/-- One more accepted change of a body. -/
theorem FunctionBody.Records.after? {changes : List BodyChange} {body after : FunctionBody}
    {change : BodyChange} (h : body.Records changes) (ha : change.after? body = some after) :
    after.Records (changes ++ [change]) := by
  -- one case for each kind of body and of change
  cases h with
  | empty =>
    cases change with
    | append line =>
      obtain rfl := Option.some.inj ha
      exact .accumulating (List.cons_ne_nil line [])
    | fix lines =>
      obtain rfl := Option.some.inj ha
      exact .finalized lines
  | @accumulating collected hne =>
    cases change with
    | append line =>
      -- the line stands behind those collected so far
      obtain rfl := Option.some.inj ha
      have := FunctionBody.Records.accumulating (List.append_ne_nil_of_right_ne_nil collected
        (List.cons_ne_nil line []))
      simpa using this
    | fix lines => cases ha
  | finalized lines =>
    -- a body that was set as a whole accepts nothing
    cases change <;> cases ha

/-- The body after an event, whose entry tells whether a change was accepted. -/
theorem FunctionBody.Records.leave {changes : List BodyChange} {function : ContractFunction}
    (h : function.body.Records changes) {entry : LogEntry}
    (haccepted : ∀ change, entry.event = .alter change →
      entry.accepted = (change.after? function.body).isSome) :
    (entry.event.leave function).body.Records
      (changes ++ [entry].filterMap LogEntry.acceptedChange?) := by
  obtain ⟨template, event, accepted⟩ := entry
  cases event with
  | mention => simpa [LogEntry.acceptedChange?, FunctionEvent.change?, FunctionEvent.leave] using h
  | attach modifier =>
    simpa [LogEntry.acceptedChange?, FunctionEvent.change?, FunctionEvent.leave,
      ContractFunction.attach] using h
  | alter change =>
    have hisSome : accepted = (change.after? function.body).isSome := haccepted change rfl
    cases hafter : change.after? function.body with
    | none =>
      -- refused: neither the body nor the changes grow
      rw [hafter] at hisSome
      subst hisSome
      simpa [LogEntry.acceptedChange?, FunctionEvent.leave, hafter] using h
    | some after =>
      -- accepted: one more change, and the body after it
      rw [hafter] at hisSome
      subst hisSome
      simpa [LogEntry.acceptedChange?, FunctionEvent.change?, FunctionEvent.leave, hafter]
        using h.after? hafter

theorem eraseDups_append_singleton (l : List String) (a : String) :
    (l ++ [a]).eraseDups = if a ∈ l then l.eraseDups else l.eraseDups ++ [a] := by
  rw [List.eraseDups_append]
  by_cases h : a ∈ l
  · simp [List.removeAll, h]
  · simp [List.removeAll, List.eraseDups_cons, h]

theorem entriesFor_append_of_ne {signature : String} {log : List LogEntry} {entry : LogEntry}
    (h : entry.signature ≠ signature) :
    entriesFor signature (log ++ [entry]) = entriesFor signature log := by
  simp [entriesFor, h]

theorem entriesFor_append_self (log : List LogEntry) (entry : LogEntry) :
    entriesFor entry.signature (log ++ [entry]) = entriesFor entry.signature log ++ [entry] := by
  simp [entriesFor]

theorem entriesFor_eq_nil {signature : String} {log : List LogEntry}
    (h : signature ∉ log.map LogEntry.signature) : entriesFor signature log = [] := by
  refine List.filter_eq_nil_iff.mpr fun entry hentry => ?_
  intro he
  exact h (List.mem_map.mpr ⟨entry, hentry, by simpa using he⟩)

/-- The function that a template stands for in a registry, fresh if there is none. -/
def functionAt (functions : Registry ContractFunction ContractFunction.signature)
    (template : FunctionTemplate) : ContractFunction :=
  (functions.find? template.signature).getD { template }

/-- The registry after an event. -/
def writeEvent (functions : Registry ContractFunction ContractFunction.signature)
    (event : FunctionTemplate × FunctionEvent) :
    Registry ContractFunction ContractFunction.signature :=
  functions.put (event.2.leave (functionAt functions event.1))

@[simp] theorem signature_functionAt
    (functions : Registry ContractFunction ContractFunction.signature)
    (template : FunctionTemplate) :
    (functionAt functions template).signature = template.signature := by
  unfold functionAt
  cases h : functions.find? template.signature with
  | none => rfl
  | some function => exact Registry.key_eq_of_find?_eq_some h

theorem contains_foldl_writeEvent
    (functions : Registry ContractFunction ContractFunction.signature)
    (events : List (FunctionTemplate × FunctionEvent)) (signature : String) :
    (events.foldl writeEvent functions).contains signature =
      (events.any (·.1.signature == signature) || functions.contains signature) := by
  induction events generalizing functions with
  | nil => rfl
  | cons event rest ih =>
    rw [List.foldl_cons, ih, writeEvent, Registry.contains_put, FunctionEvent.signature_leave,
      signature_functionAt, List.any_cons, ← Bool.or_assoc,
      Bool.or_comm (event.1.signature == signature)]

/-- What events leave has a property if they keep it and give it to fresh functions. -/
theorem forall_foldl_writeEvent {P : ContractFunction → Prop}
    {functions : Registry ContractFunction ContractFunction.signature}
    {events : List (FunctionTemplate × FunctionEvent)}
    (h : ∀ function ∈ functions.toList, P function)
    (hevents : ∀ event ∈ events, ∀ function,
      P function ∨ function = { template := event.1 } → P (event.2.leave function)) :
    ∀ function ∈ (events.foldl writeEvent functions).toList, P function := by
  -- induction on the events, with the registry written so far
  induction events generalizing functions with
  | nil => exact h
  | cons event rest ih =>
    obtain ⟨hevent, hrest⟩ := List.forall_mem_cons.mp hevents
    refine ih (fun function hfunction => ?_) hrest
    rcases Registry.mem_put.mp hfunction with rfl | ⟨hold, -⟩
    · -- the function of the event was there before or starts from its template
      refine hevent _ ?_
      unfold functionAt
      cases hfind : functions.find? event.1.signature with
      | none => exact .inr rfl
      | some found => exact .inl (h found (Registry.find?_eq_some_iff.mp hfind).1)
    · exact h function hold

namespace Replays

variable {log : List LogEntry} {functions : Registry ContractFunction ContractFunction.signature}

theorem mem_keys (h : Replays log functions) {signature : String} :
    signature ∈ functions.keys ↔ signature ∈ log.map LogEntry.signature := by
  rw [h.keys, List.mem_eraseDups]

/-- The function that a template stands for, mentioned before or not, has the modifiers and the
body that the log so far says, and the template that the log then says. -/
theorem functionAt_recorded (h : Replays log functions) (template : FunctionTemplate) :
    let function := functionAt functions template
    ((entriesFor template.signature log).head?.map (·.template)).getD template =
        function.template ∧
      function.modifiers = modifiersFor template.signature log ∧
      function.body.Records (changesFor template.signature log) := by
  intro function
  have hfunction : function = functionAt functions template := rfl
  unfold functionAt at hfunction
  cases hfind : functions.find? template.signature with
  | some found =>
    -- mentioned before: the log already says what it is
    obtain ⟨hmem, hsignature⟩ := Registry.find?_eq_some_iff.mp hfind
    obtain ⟨htemplate, hmodifiers, hbody⟩ := h.recorded found hmem
    rw [hsignature] at htemplate hmodifiers hbody
    rw [hfunction, hfind, htemplate]
    exact ⟨rfl, hmodifiers, hbody⟩
  | none =>
    -- not mentioned: no entry is about its signature, and it is fresh
    have hfree : template.signature ∉ log.map LogEntry.signature := by
      rw [← h.mem_keys, ← Registry.contains_iff_mem_keys, ← Registry.isSome_find?, hfind]
      simp
    have hnil := entriesFor_eq_nil hfree
    rw [hfunction, hfind]
    simp only [modifiersFor, changesFor, hnil]
    exact ⟨rfl, rfl, .empty⟩

/-- **One more entry and its write.** Whether a change of a body is accepted is up to the body;
everything else is as it is told. -/
theorem write (h : Replays log functions) (template : FunctionTemplate) (event : FunctionEvent)
    (accepted : Bool)
    (haccepted : ∀ change, event = .alter change →
      accepted = (change.after? (functionAt functions template).body).isSome) :
    Replays (log ++ [⟨template, event, accepted⟩]) (writeEvent functions (template, event)) := by
  set entry : LogEntry := ⟨template, event, accepted⟩
  have hentry : entry.signature = template.signature := rfl
  constructor
  · -- the signature is new at the end, or was mentioned before
    rw [writeEvent, Registry.keys_put, FunctionEvent.signature_leave, signature_functionAt]
    rw [List.map_append, List.map_singleton, hentry, eraseDups_append_singleton, h.keys]
    have hmem := Registry.contains_iff_mem_keys functions template.signature
    rw [h.mem_keys] at hmem
    by_cases hs : template.signature ∈ log.map LogEntry.signature
    · rw [if_pos (hmem.mpr hs), if_pos hs]
    · rw [if_neg (fun he => hs (hmem.mp he)), if_neg hs]
  · intro function hfunction
    rcases Registry.mem_put.mp hfunction with rfl | ⟨hold, hne⟩
    · -- the function written: its entries are the old ones and the new one
      obtain ⟨htemplate, hmodifiers, hbody⟩ := h.functionAt_recorded template
      have hentries := entriesFor_append_self log entry
      rw [hentry] at hentries
      constructor
      · -- the first entry stays first
        rw [FunctionEvent.signature_leave, signature_functionAt, hentries, List.head?_append,
          FunctionEvent.template_leave, ← htemplate]
        cases (entriesFor template.signature log).head? <;> rfl
      · rw [FunctionEvent.signature_leave, signature_functionAt, modifiersFor, hentries,
          List.filterMap_append, FunctionEvent.modifiers_leave, hmodifiers]
        rfl
      · rw [FunctionEvent.signature_leave, signature_functionAt, changesFor, hentries,
          List.filterMap_append]
        exact hbody.leave haccepted
    · -- any other function: the new entry is not about it
      rw [FunctionEvent.signature_leave, signature_functionAt] at hne
      have hsame : entriesFor function.signature (log ++ [entry]) = _ :=
        entriesFor_append_of_ne hne.symm
      obtain ⟨htemplate, hmodifiers, hbody⟩ := h.recorded function hold
      constructor
      · rw [hsame, htemplate]
      · rw [modifiersFor, hsame, hmodifiers, modifiersFor]
      · rw [changesFor, hsame]
        exact hbody

theorem writes (h : Replays log functions) (accepted : Bool)
    {events : List (FunctionTemplate × FunctionEvent)}
    (hevents : ∀ event ∈ events, event.2.change? = none) :
    Replays (log ++ events.map fun event => ⟨event.1, event.2, accepted⟩)
      (events.foldl writeEvent functions) := by
  -- induction on the events, one write at a time
  induction events generalizing log functions with
  | nil => simpa using h
  | cons event rest ih =>
    have hevent : event.2.change? = none := hevents event (by simp)
    have hfirst := h.write event.1 event.2 accepted fun change hchange => by
      rw [hchange] at hevent
      cases hevent
    have := ih hfirst fun other hother => hevents other (by simp [hother])
    simpa using this

end Replays

/-! ## The functions after an operation -/

namespace Contract

theorem functionRegistry_addFunction (c : Contract) (template : FunctionTemplate) :
    (c.addFunction template).functionRegistry =
      writeEvent c.functionRegistry (template, .mention) := rfl

/-- Guarding an entry point attaches one modifier, whatever else it adds. -/
theorem functionRegistry_restrict (c : Contract) (entry : FunctionTemplate) (mode : AccessMode)
    (role : String) :
    (c.restrict entry mode role).functionRegistry =
      writeEvent c.functionRegistry (entry, .attach (mode.guardStatement role)) := by
  rw [restrict_eq]
  rfl

theorem addModifiers_eq (c : Contract) (modifier : String) (templates : List FunctionTemplate) :
    templates.foldl (fun c template => c.addModifier modifier template) c =
      { c with
        functionRegistry :=
          (templates.map fun template => (template, FunctionEvent.attach modifier)).foldl
            writeEvent c.functionRegistry } := by
  induction templates generalizing c with
  | nil => rfl
  | cons template rest ih => exact ih _

theorem functionRegistry_makePausable (c : Contract) (mode : AccessMode)
    (entries : List FunctionTemplate) :
    (c.makePausable mode entries).functionRegistry =
      (Operation.makePausable mode entries).events.foldl writeEvent c.functionRegistry := by
  simp only [makePausable, functionRegistry_restrict, functionRegistry_addFunction,
    addModifiers_eq, Operation.events, List.foldl_append, List.foldl_cons, List.foldl_nil]
  rfl

theorem functionRegistry_makeUpgradeable (c : Contract) (upgradeable : Bool) (mode : AccessMode) :
    (c.makeUpgradeable upgradeable mode).functionRegistry =
      (Operation.makeUpgradeable upgradeable mode).events.foldl writeEvent
        c.functionRegistry := by
  cases upgradeable with
  | false => rfl
  | true => exact functionRegistry_restrict _ _ _ _

/-- A line is refused exactly when the body refuses it, and the write is that of the event. -/
theorem addCode_eq (c : Contract) (line : String) (template : FunctionTemplate) :
    (c.addCode line template).contract.functionRegistry =
        writeEvent c.functionRegistry (template, .alter (.append line)) ∧
      (c.addCode line template).refusal?.isNone =
        ((BodyChange.append line).after? (functionAt c.functionRegistry template).body).isSome := by
  have hfunction : c.functionOrFresh template = functionAt c.functionRegistry template := rfl
  simp only [addCode, attemptOn, ContractFunction.appendCode, hfunction, writeEvent,
    FunctionEvent.leave, BodyChange.after?]
  cases (functionAt c.functionRegistry template).body.append? line with
  | none => exact ⟨rfl, rfl⟩
  | some after => exact ⟨rfl, rfl⟩

/-- A whole body is refused exactly when there is a body, and the write is that of the event. -/
theorem setBody_eq (c : Contract) (lines : List String) (template : FunctionTemplate) :
    (c.setBody lines template).contract.functionRegistry =
        writeEvent c.functionRegistry (template, .alter (.fix lines)) ∧
      (c.setBody lines template).refusal?.isNone =
        ((BodyChange.fix lines).after? (functionAt c.functionRegistry template).body).isSome := by
  have hfunction : c.functionOrFresh template = functionAt c.functionRegistry template := rfl
  simp only [setBody, attemptOn, ContractFunction.setBody, hfunction, writeEvent,
    FunctionEvent.leave, BodyChange.after?]
  cases (functionAt c.functionRegistry template).body.fix? lines with
  | none => exact ⟨rfl, rfl⟩
  | some after => exact ⟨rfl, rfl⟩

theorem functionRegistry_addTag (c : Contract) (key value : String) :
    (Operation.orUnchanged c (c.addTag key value)).contract.functionRegistry =
      c.functionRegistry := by
  unfold addTag
  split <;> rfl

theorem functionRegistry_describe (c : Contract) (info : Metadata) :
    (Operation.orUnchanged c (c.describe info)).contract.functionRegistry =
      c.functionRegistry := by
  rw [describe_eq]
  rfl

/-- **What one operation leaves** of the functions: its events write them, refused or not. -/
theorem functionRegistry_attempt (c : Contract) (operation : Operation) :
    (operation.attempt c).contract.functionRegistry =
      operation.events.foldl writeEvent c.functionRegistry := by
  cases operation with
  -- the two operations that may be refused
  | addCode line template => exact (c.addCode_eq line template).1
  | setBody lines template => exact (c.setBody_eq lines template).1
  -- features attach guards and mention functions
  | restrict entry mode role => exact c.functionRegistry_restrict entry mode role
  | makePausable mode entries => exact c.functionRegistry_makePausable mode entries
  | makeUpgradeable upgradeable mode => exact c.functionRegistry_makeUpgradeable upgradeable mode
  -- the rest is one event, or none
  | addTag key value => exact c.functionRegistry_addTag key value
  | describe info => exact c.functionRegistry_describe info
  | _ => rfl

/-- An operation leaves of a log what the log says, with its own entries behind it. -/
theorem replays_attempt {c : Contract} {log : List LogEntry}
    (h : Replays log c.functionRegistry) (operation : Operation) :
    Replays (log ++ c.entriesOf operation)
      (operation.attempt c).contract.functionRegistry := by
  rw [functionRegistry_attempt]
  cases operation with
  -- whether a change of a body is accepted is up to the body
  | addCode line template =>
    obtain ⟨-, haccepted⟩ := c.addCode_eq line template
    exact h.write template _ _ fun change hchange => by cases hchange; exact haccepted
  | setBody lines template =>
    obtain ⟨-, haccepted⟩ := c.setBody_eq lines template
    exact h.write template _ _ fun change hchange => by cases hchange; exact haccepted
  -- any other operation is a sequence of events that are never refused
  | _ => exact h.writes _ fun event hevent => Operation.change?_of_mem_events rfl hevent

/-- **Functions replay the log.** A run leaves of a log what the log says, with the entries of
the run behind it. -/
theorem replays_run {c : Contract} {log : List LogEntry} (h : Replays log c.functionRegistry)
    (operations : List Operation) :
    Replays (log ++ c.log operations) (c.run operations).functionRegistry := by
  -- the entries of the first operation join the log, and the rest goes on from there
  induction operations generalizing c log with
  | nil =>
    rw [run_nil, Contract.log, List.append_nil]
    exact h
  | cons operation rest ih =>
    rw [run_cons, Contract.log, ← List.append_assoc]
    exact ih (replays_attempt h operation)

theorem replays_new (title : String) : Replays [] (Contract.new title).functionRegistry :=
  ⟨rfl, fun _ h => nomatch h⟩

/-! ## When a body refuses -/

/-- A line is refused exactly when the body was set as a whole, be it with no line at all. -/
theorem refusal?_addCode (c : Contract) (line : String) (template : FunctionTemplate)
    (refusal : Refusal) :
    (c.addCode line template).refusal? = some refusal ↔
      ∃ function lines, c.function? template = some function ∧
        function.body = .finalized lines ∧
        refusal = .functionFinalized function.template.name := by
  unfold addCode attemptOn functionOrFresh
  cases c.function? template with
  -- a fresh function accepts any line
  | none => simp [ContractFunction.appendCode, FunctionBody.append?]
  | some function =>
    obtain ⟨own, modifiers, body⟩ := function
    cases body <;> simp [ContractFunction.appendCode, FunctionBody.append?, eq_comm]

/-- A whole body is refused exactly when there is a body, and the refusal tells which kind. -/
theorem refusal?_setBody (c : Contract) (lines : List String) (template : FunctionTemplate)
    (refusal : Refusal) :
    (c.setBody lines template).refusal? = some refusal ↔
      ∃ function, c.function? template = some function ∧
        ((∃ code, function.body = .accumulating code ∧
            refusal = .functionHasCode function.template.name) ∨
          (∃ code, function.body = .finalized code ∧
            refusal = .functionFinalized function.template.name)) := by
  unfold setBody attemptOn functionOrFresh
  cases c.function? template with
  | none => simp [ContractFunction.setBody, FunctionBody.fix?]
  | some function =>
    obtain ⟨own, modifiers, body⟩ := function
    cases body <;>
      simp [ContractFunction.setBody, FunctionBody.fix?, FunctionBody.isFinal, eq_comm]

/-- **Functions after a run.** One function for each signature that was ever mentioned, in order
of first mention; each keeps the template of its first mention, has every modifier that was
attached to its signature in order of attachment, and has the body that the accepted changes
leave. A line is refused exactly when the body was set as a whole, and a whole body exactly when
there is a body. -/
theorem functions_run (title : String) (operations : List Operation) :
    let c := (Contract.new title).run operations
    let log := (Contract.new title).log operations
    c.functions.map (·.signature) = (log.map (·.signature)).eraseDups ∧
      (∀ function ∈ c.functions,
        (log.find? (·.signature == function.signature)).map (·.template) =
            some function.template ∧
          function.modifiers =
            (log.filter (·.signature == function.signature)).filterMap (·.event.modifier?) ∧
          function.body.Records
            ((log.filter (·.signature == function.signature)).filterMap (·.acceptedChange?))) ∧
      (∀ line template refusal,
        (c.addCode line template).refusal? = some refusal ↔
          ∃ function lines, c.function? template = some function ∧
            function.body = .finalized lines ∧
            refusal = .functionFinalized function.template.name) ∧
      (∀ lines template refusal,
        (c.setBody lines template).refusal? = some refusal ↔
          ∃ function, c.function? template = some function ∧
            ((∃ code, function.body = .accumulating code ∧
                refusal = .functionHasCode function.template.name) ∨
              (∃ code, function.body = .finalized code ∧
                refusal = .functionFinalized function.template.name))) := by
  intro c log
  have h : Replays log c.functionRegistry := replays_run (replays_new title) operations
  refine ⟨h.keys, ?_, c.refusal?_addCode, c.refusal?_setBody⟩
  intro function hfunction
  obtain ⟨htemplate, hmodifiers, hbody⟩ := h.recorded function hfunction
  rw [entriesFor, List.head?_filter] at htemplate
  exact ⟨htemplate, hmodifiers, hbody⟩

end Contract

end CairoForge
