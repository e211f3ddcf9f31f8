import CairoForge.Proofs.ContractDumps
import CairoForge.Proofs.RegistryHistory

/-!
# Placement of the module against a second initialization

Base modules are kept in order of first addition, and presented with `Initializable` first. So the
place in which it is kept shows nowhere, and it may be added at any point of a run.

## Main definitions

* `Contract.JoinedBy` — a registry with the module somewhere among other base modules.
* `Contract.Joined` — a contract with the module, and the same contract without it.

## Main results

* `Contract.Joined.attempt`, `Contract.joined_run` — a step and a whole run keep contracts joined.
* `Contract.Joined.parents` — what is presented of joined contracts.
* `Contract.initializable_anywhere` — when the module is added does not matter.
-/

namespace CairoForge

namespace Contract

variable {a b c : Contract}

/-! ## One more base module -/

/-- The registry is the other one with the module against a second initialization somewhere among
its values. -/
structure JoinedBy (registry others : Registry Parent (·.base.name)) : Prop where
  mem : ⟨.initializable, []⟩ ∈ registry.toList
  filter : registry.toList.filter (·.base.name != initializableName) = others.toList

namespace JoinedBy

variable {registry others : Registry Parent (·.base.name)}

/-- A base module of another name is written in the same place of both. -/
theorem put (h : JoinedBy registry others) {p : Parent} (hname : p.base.name ≠ initializableName) :
    JoinedBy (registry.put p) (others.put p) where
  mem := Registry.mem_put.mpr (.inr ⟨h.mem, hname.symm⟩)
  filter := by
    have hwrite : (registry.put p).toList.filter (·.base.name != initializableName) =
        Registry.putIn (·.base.name) p
          (registry.toList.filter (·.base.name != initializableName)) :=
      @Registry.filter_putIn Parent (·.base.name) p _ hname registry.toList
    exact hwrite.trans (congrArg (Registry.putIn _ p) h.filter)

theorem contains (h : JoinedBy registry others) {name : String} (hname : name ≠ initializableName) :
    registry.contains name = others.contains name := by
  rw [Registry.contains, Registry.contains, ← h.filter, List.any_filter]
  refine congrArg (registry.toList.any ·) (funext fun p => ?_)
  by_cases hp : p.base.name = name
  · have hkept : (p.base.name != initializableName) = true := bne_iff_ne.mpr (hp ▸ hname)
    rw [hkept, Bool.true_and]
  · rw [beq_eq_false_iff_ne.mpr hp, Bool.and_false]

end JoinedBy

theorem joinedBy_put {registry : Registry Parent (·.base.name)}
    (h : registry.contains initializableName = false) :
    JoinedBy (registry.put ⟨.initializable, []⟩) registry where
  mem := Registry.mem_put.mpr (.inl rfl)
  filter := by
    have hothers : ∀ p ∈ registry.toList, p.base.name ≠ initializableName := by
      simpa [Registry.contains] using h
    have hput : (registry.put ⟨.initializable, []⟩).toList =
        registry.toList ++ [⟨.initializable, []⟩] :=
      Registry.toList_put_of_contains_eq_false h
    rw [hput, List.filter_append,
      List.filter_eq_self.mpr fun p hp => bne_iff_ne.mpr (hothers p hp)]
    exact List.append_nil _

/-- The contracts agree but for the module against a second initialization, which the first one has
among its base modules. -/
def Joined (a b : Contract) : Prop :=
  ∃ registry, a = { b with parentRegistry := registry } ∧ JoinedBy registry b.parentRegistry

/-! ## Steps -/

theorem hasParent_eq_false_of_run {operations : List Operation} {name : String}
    (h : (c.run operations).hasParent name = false) : c.hasParent name = false := by
  rw [hasParent_run, Bool.or_eq_false_iff] at h
  exact h.2

namespace Joined

/-- A guard looks for the module of its mode, which is another one. -/
theorem restrict (h : a.Joined b) (entry : FunctionTemplate) (mode : AccessMode) (role : String) :
    (a.restrict entry mode role).Joined (b.restrict entry mode role) := by
  obtain ⟨registry, rfl, hregistry⟩ := h
  have hname : mode.parent.base.name ≠ initializableName := by
    cases mode with
    | ownable => decide
    | roles => decide
  have hhas : hasParent { b with parentRegistry := registry } mode.parent.base.name =
      b.hasParent mode.parent.base.name := hregistry.contains hname
  -- what a guard grants besides depends on whether the roles were there
  have hgrants : newGrants { b with parentRegistry := registry } role mode =
      b.newGrants role mode := by
    cases mode with
    | ownable => rfl
    | roles => exact congrArg (fun has : Bool => (if has then [] else _) ++ _) hhas
  refine ⟨registry.put mode.parent, ?_, ?_⟩
  · rw [restrict_eq, restrict_eq, hhas, hgrants]
    rfl
  · rw [restrict_eq]
    exact hregistry.put hname

/-- **A call or guard keeps contracts joined**, unless it is one that adds the module. -/
theorem attempt (h : a.Joined b) {part : Operation}
    (hpart : part.isFeature = false ∨ ∃ entry mode role, part = .restrict entry mode role)
    (hname : (part.attempt b).contract.hasParent initializableName = false) :
    (part.attempt a).contract.Joined (part.attempt b).contract := by
  rcases hpart with hcall | ⟨entry, mode, role, rfl⟩
  · obtain ⟨registry, rfl, hregistry⟩ := h
    cases part with
    | addParent base params =>
      change (b.addParent base params).2.hasParent initializableName = false at hname
      rw [hasParent_addParent, Bool.or_eq_false_iff, beq_eq_false_iff_ne] at hname
      exact ⟨_, rfl, hregistry.put hname.1⟩
    -- a change of a body, accepted or refused, looks at the function alone
    | addCode line template =>
      have hfresh : functionOrFresh { b with parentRegistry := registry } template =
        b.functionOrFresh template := rfl
      simp only [Operation.attempt, addCode, attemptOn, hfresh]
      split <;> exact ⟨registry, rfl, hregistry⟩
    | setBody lines template =>
      have hfresh : functionOrFresh { b with parentRegistry := registry } template =
        b.functionOrFresh template := rfl
      simp only [Operation.attempt, setBody, attemptOn, hfresh]
      split <;> exact ⟨registry, rfl, hregistry⟩
    -- whether a key is refused does not depend on the contract
    | addTag key value =>
      simp only [Operation.attempt, addTag]
      split <;> exact ⟨registry, rfl, hregistry⟩
    | restrict | makePausable | makeUpgradeable | describe => cases hcall
    | _ => exact ⟨registry, rfl, hregistry⟩
  · exact h.restrict entry mode role

/-- Calls and guards keep contracts joined, one after the other. -/
theorem run (h : a.Joined b) {parts : List Operation}
    (hparts : ∀ part ∈ parts, part.isFeature = false ∨
      ∃ entry mode role, part = .restrict entry mode role)
    (hname : (b.run parts).hasParent initializableName = false) :
    (a.run parts).Joined (b.run parts) := by
  -- the relation is what a step keeps; that nothing adds the module is said of the end of the run
  induction parts generalizing a b with
  | nil => exact h
  | cons part rest ih =>
    obtain ⟨hpart, hrest⟩ := List.forall_mem_cons.mp hparts
    rw [run_cons] at hname ⊢
    -- what is missing in the end was missing after the first step
    exact ih (h.attempt hpart (hasParent_eq_false_of_run hname)) hrest hname

end Joined

/-- **A run in which the module is added on the way** ends as the run without it, with the module
among the base modules. -/
theorem joined_run (c : Contract) {before after : List Operation}
    (h : (c.run (before ++ after)).hasParent initializableName = false) :
    (c.run (before ++ .addParent .initializable [] :: after)).Joined (c.run (before ++ after)) := by
  rw [run_append] at h ⊢
  rw [run_append, run_cons]
  have hjoined : ((Operation.addParent .initializable []).attempt (c.run before)).contract.Joined
      (c.run before) := ⟨_, rfl, joinedBy_put (hasParent_eq_false_of_run h)⟩
  -- the operations behind the addition are taken apart, so that only guards and calls are left
  rw [← run_flatMap_parts _ after] at h
  rw [← run_flatMap_parts _ after, ← run_flatMap_parts _ after]
  refine hjoined.run (fun part hpart => ?_) h
  obtain ⟨operation, -, hpart⟩ := List.mem_flatMap.mp hpart
  exact isFeature_of_mem_parts hpart

/-! ## Presentation -/

namespace Joined

/-- The module is presented first, and the others as they are without it. -/
theorem parents (h : a.Joined b) : a.parents = ⟨.initializable, []⟩ :: b.parents := by
  obtain ⟨registry, rfl, hregistry⟩ := h
  -- no name is registered twice, so nothing else has this one
  have hfirst : registry.toList.filter (·.base.name == initializableName) =
      [⟨.initializable, []⟩] :=
    Registry.filter_key_eq hregistry.mem
  have hnone : b.parentRegistry.toList.filter (·.base.name == initializableName) = [] := by
    rw [← hregistry.filter, List.filter_filter]
    simp
  have hall : b.parentRegistry.toList.filter (·.base.name != initializableName) =
      b.parentRegistry.toList := by
    rw [← hregistry.filter, List.filter_filter]
    simp
  rw [Contract.parents, Contract.parents, List.partition_eq_filter_filter,
    List.partition_eq_filter_filter]
  change registry.toList.filter _ ++ registry.toList.filter (·.base.name != initializableName) =
    _ :: (b.parentRegistry.toList.filter _ ++
      b.parentRegistry.toList.filter (·.base.name != initializableName))
  rw [hfirst, hregistry.filter, hnone, hall]
  rfl

/-- Where the module is kept shows in no part of a contract. -/
theorem sameParts (ha : a.Joined c) (hb : b.Joined c) : a.SameParts b := by
  have hparents : a.parents = b.parents := ha.parents.trans hb.parents.symm
  obtain ⟨registry, rfl, -⟩ := ha
  obtain ⟨registry', rfl, -⟩ := hb
  exact ⟨rfl, rfl, rfl, hparents, rfl, rfl, rfl, rfl, rfl, rfl⟩

end Joined

/-- **When the module against a second initialization is added does not matter.** Take a run that
adds no base module named `Initializable`; no operation takes a name away, so it is enough that
there is none in the end. The module may be added once at any point of it: it is presented first,
and the others as the run leaves them. Whatever two points are chosen, the contracts have the same
imports, the same JSON, compact or spread over lines, and the same source, whatever is renamed; and
they are equal unless NaN is among the arguments of initializers, which equals nothing. -/
theorem initializable_anywhere (title : String) {operations : List Operation}
    (h : ((Contract.new title).run operations).hasParent "Initializable" = false)
    {before after before' after' : List Operation} (hcut : before ++ after = operations)
    (hcut' : before' ++ after' = operations) :
    let c := (Contract.new title).run operations
    let a := (Contract.new title).run (before ++ .addParent .initializable [] :: after)
    let b := (Contract.new title).run (before' ++ .addParent .initializable [] :: after')
    a.parents = ⟨.initializable, []⟩ :: c.parents ∧
      b.parents = ⟨.initializable, []⟩ :: c.parents ∧
      ((a == b) = true ↔
        ∀ p ∈ c.parents, ∀ v ∈ p.params, ∀ n, v.innermost = .number n → n.datum ≠ .nan) ∧
      a.imports = b.imports ∧
      a.json.compact = b.json.compact ∧ a.json.pretty = b.json.pretty ∧
      ∀ naming, a.source naming = b.source naming := by
  intro c a b
  have hjoined : ∀ {first second : List Operation}, first ++ second = operations →
      ((Contract.new title).run (first ++ .addParent .initializable [] :: second)).Joined c := by
    rintro first second rfl
    exact joined_run (Contract.new title) h
  have ha : a.Joined c := hjoined hcut
  have hb : b.Joined c := hjoined hcut'
  have hparts : a.SameParts b := ha.sameParts hb
  have hjson : a.json = b.json := json_eq_iff_sameParts.mpr hparts
  refine ⟨ha.parents, hb.parents, ?_, hparts.imports, by rw [hjson], by rw [hjson],
    hparts.source⟩
  -- the module itself has no arguments
  rw [hparts.beq_iff, ha.parents, List.forall_mem_cons]
  have hnone : ∀ v ∈ ([] : List Value), ∀ n, v.innermost = .number n → n.datum ≠ .nan := nofun
  exact and_iff_right hnone

/-- A token behind a proxy with roles: the module is kept first or in the middle, and the contracts
are equal and print alike. -/
theorem initializable_anywhere_of_proxied :
    let decimals : Value := .note "decimals" (.number ⟨0x4032000000000000⟩)
    let setUp : List Operation := [.addParent .erc20 [.text "Coin", decimals], .setUpgradeable true]
    let guard : Operation := .restrict .pause .roles "PAUSER"
    let a := (Contract.new "Coin").run (.addParent .initializable [] :: (setUp ++ [guard]))
    let b := (Contract.new "Coin").run (setUp ++ [.addParent .initializable [], guard])
    ((Contract.new "Coin").run (setUp ++ [guard])).hasParent "Initializable" = false ∧
      a.parentRegistry.keys = ["Initializable", "ERC20", "AccessControl"] ∧
      b.parentRegistry.keys = ["ERC20", "Initializable", "AccessControl"] ∧
      (a == b) = true ∧ a.source {} = b.source {} := by
  intro decimals setUp guard a b
  have hnone : ((Contract.new "Coin").run (setUp ++ [guard])).hasParent "Initializable" = false :=
    rfl
  have hparents : ((Contract.new "Coin").run (setUp ++ [guard])).parents =
      [⟨.erc20, [.text "Coin", decimals]⟩, ⟨.accessControl, []⟩] := rfl
  have hnumbers : ∀ v ∈ [Value.text "Coin", decimals], ∀ n, v.innermost = .number n →
      n.datum ≠ .nan := by
    intro v hv n hn
    rcases List.mem_pair.mp hv with rfl | rfl
    · cases hn
    · obtain rfl := Value.number.inj hn
      decide
  have hfirst : [] ++ (setUp ++ [guard]) = setUp ++ [guard] := rfl
  have hmiddle : setUp ++ [guard] = setUp ++ [guard] := rfl
  obtain ⟨-, -, hequal, -, -, -, hsource⟩ :=
    initializable_anywhere "Coin" hnone hfirst hmiddle
  refine ⟨hnone, rfl, rfl, hequal.mpr ?_, hsource {}⟩
  rw [hparents]
  intro p hp v hv
  rcases List.mem_pair.mp hp with rfl | rfl
  · exact hnumbers v hv
  · cases hv

end Contract

end CairoForge
