import CairoForge.Proofs.RegistryHistory
import CairoForge.Proofs.TextGrammars

/-!
# Keys of tags

A tag is accepted if its key follows the grammar of keys, whatever the contract and the value of the
tag are. A refused tag leaves the contract as it was; so after a run the tags are those that the
calls of the run offered, in their order, without the ones whose keys are none.

## Main definitions

* `Tag.keyGrammar` — the grammar of keys.
* `Operation.tag?` — the tag that a call offers.

## Main results

* `Tag.isValidKey_iff` — a key is found valid if it follows the grammar.
* `Contract.addTag_of_follows`, `Contract.addTag_of_not_follows` — what becomes of a tag.
* `Contract.tags_attempt`, `Contract.tags_run_calls` — what one call and several leave.
* `Contract.tags_run` — the tags of a contract after a run.
-/

namespace CairoForge

open scoped Computability

/-! ## The grammar of keys -/

namespace Tag

variable {key : String}

/-- The grammar of what is left of a key without its prefix: `[a-z][a-z-]*`. -/
def stemGrammar : Language Char :=
  Grammar.wordOf (Set.Icc 'a' 'z') (Set.Icc 'a' 'z' ∪ {'-'})

/-- **The grammar of keys**: `(@custom:)?[a-z][a-z-]*`. -/
def keyGrammar : Language Char :=
  (1 + {"@custom:".toList}) * stemGrammar

/-- A key is judged by its stem. -/
theorem isValidKey_iff_stem : isValidKey key = true ↔
    (if "@custom:".toList.isPrefixOf key.toList then key.toList.drop "@custom:".toList.length
      else key.toList) ∈ stemGrammar := by
  dsimp only [isValidKey]
  generalize (if "@custom:".toList.isPrefixOf key.toList then
    key.toList.drop "@custom:".toList.length else key.toList) = stem
  cases stem with
  | nil => exact iff_of_false Bool.false_ne_true Grammar.nil_notMem_wordOf
  | cons first rest =>
    simp only [stemGrammar, Grammar.cons_mem_wordOf, Bool.and_eq_true, List.all_eq_true,
      Bool.or_eq_true, beq_iff_eq, Grammar.isLower_iff, Set.mem_union, Set.mem_singleton_iff]

/-- A key is found valid if it follows the grammar. -/
theorem isValidKey_iff : isValidKey key = true ↔ Follows key keyGrammar := by
  rw [isValidKey_iff_stem, Follows, keyGrammar, Grammar.mem_optional_mul,
    Grammar.mem_singleton_mul]
  by_cases hcustom : "@custom:".toList.isPrefixOf key.toList = true
  · -- a stem starts with a letter, so what starts with the prefix is no stem by itself
    obtain ⟨stem, hkey⟩ := List.isPrefixOf_iff_prefix.mp hcustom
    have hsign : "@custom:".toList ++ stem ∉ stemGrammar := by
      intro hmem
      exact absurd (Grammar.cons_mem_wordOf.mp hmem).1 (by decide)
    rw [if_pos hcustom, ← hkey, List.drop_left]
    constructor
    · intro hmem
      exact .inr ⟨stem, hmem, rfl⟩
    · rintro (hmem | ⟨rest, hmem, hsplit⟩)
      · exact absurd hmem hsign
      · exact List.append_cancel_left hsplit ▸ hmem
  · rw [if_neg hcustom]
    refine (or_iff_left ?_).symm
    rintro ⟨rest, -, hsplit⟩
    exact hcustom (List.isPrefixOf_iff_prefix.mpr ⟨rest, hsplit.symm⟩)

instance : DecidablePred fun key => Follows key keyGrammar := fun _ =>
  decidable_of_iff _ isValidKey_iff

example : ¬Follows "fee\n" keyGrammar := by decide

end Tag

/-- The tag that a call offers, if it offers one. -/
def Operation.tag? : Operation → Option Tag
  | addTag key value => some ⟨key, value⟩
  | _ => none

/-! ## Single tags -/

namespace Contract

variable {c : Contract} {key : String}

/-- A tag whose key is one comes behind the others. -/
theorem addTag_of_follows (h : Follows key Tag.keyGrammar) (value : String) :
    c.addTag key value = .ok { c with tags := c.tags ++ [⟨key, value⟩] } :=
  if_pos (Tag.isValidKey_iff.mpr h)

theorem addTag_of_not_follows (h : ¬Follows key Tag.keyGrammar) (value : String) :
    c.addTag key value = .error (.invalidTagKey key) :=
  if_neg (mt Tag.isValidKey_iff.mp h)

/-- A tag is accepted just if its key is one. -/
theorem exists_addTag_iff (value : String) :
    (∃ changed, c.addTag key value = .ok changed) ↔ Follows key Tag.keyGrammar := by
  constructor
  · rintro ⟨changed, hchanged⟩
    by_contra h
    rw [addTag_of_not_follows h] at hchanged
    cases hchanged
  · intro h
    exact ⟨_, addTag_of_follows h value⟩

/-! ## Tags of a run -/

/-- **What one call leaves** of the tags: a tag that is accepted comes behind the others, and
nothing else changes them. -/
theorem tags_attempt (c : Contract) {call : Operation} (h : call.isFeature = false) :
    (call.attempt c).contract.tags =
      c.tags ++ call.tag?.toList.filter (Follows ·.key Tag.keyGrammar) := by
  have hframe : (call.attempt c).contract.tags = c.tags → call.tag? = none →
      (call.attempt c).contract.tags =
        c.tags ++ call.tag?.toList.filter (Follows ·.key Tag.keyGrammar) := by
    intro hsame hnone
    rw [hsame, hnone, Option.toList_none, List.filter_nil, List.append_nil]
  cases call with
  | addTag key value =>
    rw [Operation.attempt, Operation.tag?, Option.toList_some]
    by_cases hkey : Follows key Tag.keyGrammar
    · rw [addTag_of_follows hkey, List.filter_cons_of_pos (by simpa using hkey)]
      rfl
    · rw [addTag_of_not_follows hkey, List.filter_cons_of_neg (by simpa using hkey)]
      exact (List.append_nil _).symm
  -- code and bodies may be refused, but either way one function is written
  | addCode line template =>
    obtain ⟨function, hfunction⟩ := c.exists_attemptOn_eq template (·.appendCode line)
    have htags := congrArg Contract.tags hfunction
    exact hframe htags rfl
  | setBody lines template =>
    obtain ⟨function, hfunction⟩ := c.exists_attemptOn_eq template (·.setBody lines)
    have htags := congrArg Contract.tags hfunction
    exact hframe htags rfl
  | restrict | makePausable | makeUpgradeable | describe => cases h
  | _ => exact hframe rfl rfl

/-- **What calls leave** of the tags: those that are accepted, in order. -/
theorem tags_run_calls (c : Contract) {calls : List Operation}
    (h : ∀ call ∈ calls, call.isFeature = false) :
    (c.run calls).tags =
      c.tags ++ (calls.filterMap Operation.tag?).filter (Follows ·.key Tag.keyGrammar) := by
  induction calls generalizing c with
  | nil => exact (List.append_nil _).symm
  | cons call rest ih =>
    obtain ⟨hcall, hrest⟩ := List.forall_mem_cons.mp h
    rw [run_cons, ih _ hrest, c.tags_attempt hcall, List.filterMap_eq_flatMap_toList,
      List.filterMap_eq_flatMap_toList, List.flatMap_cons, List.filter_append, List.append_assoc]

/-- **The tags of a contract after a run.** A contract accepts a tag just if the whole key follows
the grammar of keys. An accepted tag comes behind all others and changes nothing else; a refused one
is reported by its key and changes nothing at all. So the tags after a run are the ones that its
calls offered with such keys, those of features among them, in order. -/
theorem tags_run (title : String) (operations : List Operation) :
    let start := Contract.new title
    let c := start.run operations
    let calls := start.calls operations
    (∀ key value,
      ((∃ changed, c.addTag key value = .ok changed) ↔ Follows key Tag.keyGrammar) ∧
      (Follows key Tag.keyGrammar →
        (Operation.addTag key value).attempt c =
          { contract := { c with tags := c.tags ++ [⟨key, value⟩] } }) ∧
      (¬Follows key Tag.keyGrammar →
        c.addTag key value = .error (.invalidTagKey key) ∧
        (Operation.addTag key value).attempt c =
          { contract := c, refusal? := some (.invalidTagKey key) })) ∧
    c = start.run calls ∧ (∀ call ∈ calls, call.isFeature = false) ∧
    c.tags = (calls.filterMap Operation.tag?).filter (Follows ·.key Tag.keyGrammar) ∧
    ∀ tag ∈ c.tags, Follows tag.key Tag.keyGrammar := by
  intro start c calls
  have hcalls : ∀ call ∈ calls, call.isFeature = false := fun _ => isFeature_of_mem_calls
  have hrun : c = start.run calls := (run_calls start operations).symm
  have htags : c.tags = (calls.filterMap Operation.tag?).filter (Follows ·.key Tag.keyGrammar) := by
    rw [hrun, tags_run_calls start hcalls]
    exact List.nil_append _
  refine ⟨fun key value => ⟨exists_addTag_iff value, fun h => ?_, fun h => ?_⟩, hrun, hcalls, htags,
    fun tag htag => ?_⟩
  · rw [Operation.attempt, addTag_of_follows h]
    rfl
  · refine ⟨addTag_of_not_follows h value, ?_⟩
    rw [Operation.attempt, addTag_of_not_follows h]
    rfl
  · rw [htags] at htag
    exact of_decide_eq_true (List.mem_filter.mp htag).2

end Contract

end CairoForge
