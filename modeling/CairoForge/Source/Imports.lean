import CairoForge.Contract

/-!
# Imports of printed source

One block for each module path, with the symbols that the source uses from it. A
block stands where its path first came up: base modules as they are presented,
then attached libraries. Within a block a symbol stands where it first came up:
the initializer when the constructor calls it, the symbols of the module, the
functions that are called, the library.

## Main definitions

* `ImportBlock` — a path with its symbols.
* `Contract.importDemands` — who needs what, in order.
* `Contract.importBlocks` — the demands gathered by path.

## Main results

* `Contract.mem_importBlocks` — a symbol is imported from a path exactly when someone needs it.
-/

namespace CairoForge

/-- A module path with the symbols imported from it. -/
structure ImportBlock where
  path : String
  symbols : List String
  deriving DecidableEq

namespace ImportBlock

/-- A list with one more element at the end unless it is there already. -/
def insertNew (symbols : List String) (symbol : String) : List String :=
  if symbol ∈ symbols then symbols else symbols ++ [symbol]

/-- More symbols behind those that a block has, none of them twice. -/
def withSymbols (block : ImportBlock) (symbols : List String) : ImportBlock :=
  { block with symbols := symbols.foldl insertNew block.symbols }

theorem mem_insertNew {symbols : List String} {symbol other : String} :
    other ∈ insertNew symbols symbol ↔ other ∈ symbols ∨ other = symbol := by
  unfold insertNew
  split
  · next h =>
    refine ⟨.inl, ?_⟩
    rintro (hother | rfl)
    · exact hother
    · exact h
  · simp

theorem mem_withSymbols {block : ImportBlock} {symbols : List String} {symbol : String} :
    symbol ∈ (block.withSymbols symbols).symbols ↔ symbol ∈ block.symbols ∨ symbol ∈ symbols := by
  unfold withSymbols
  induction symbols generalizing block with
  | nil => simp
  | cons first rest ih =>
    have hrest := @ih { block with symbols := insertNew block.symbols first }
    simp only [List.foldl_cons, List.mem_cons, hrest, mem_insertNew, or_assoc]

end ImportBlock

namespace Contract

/-- Is there anything to initialize? -/
def hasConstructor (c : Contract) : Bool :=
  c.parents.any (!·.params.isEmpty) || !c.constructorCode.isEmpty

/-- What a base module is imported for. -/
def parentDemand (c : Contract) (p : Parent) : ImportBlock where
  path := p.base.importPath
  symbols :=
    (if c.hasConstructor && p.base.hasInitializer then [p.base.initializerSymbol] else []) ++
      p.base.symbols

/-- What a function needs of the base module that it calls, if that is a base
module of the contract. -/
def functionDemand? (c : Contract) (function : ContractFunction) : Option ImportBlock := do
  let name ← function.template.base?
  let p ← c.parents.find? (·.base.name == name)
  return { path := p.base.importPath, symbols := [name ++ "_" ++ function.template.name] }

/-- Who needs what, in order. -/
def importDemands (c : Contract) : List ImportBlock :=
  c.parents.map c.parentDemand ++ c.functions.filterMap c.functionDemand? ++
    c.attachments.map fun a => { path := a.library.importPath, symbols := [a.library.name] }

/-- The demands of one path in one block. -/
def gatherImports (demands : List ImportBlock) : Registry ImportBlock (·.path) :=
  demands.foldl
    (fun blocks demand =>
      let block := (blocks.find? demand.path).getD { path := demand.path, symbols := [] }
      blocks.put (block.withSymbols demand.symbols))
    .empty

/-- The import blocks of a contract; a path without symbols has none. -/
def importBlocks (c : Contract) : List ImportBlock :=
  (gatherImports c.importDemands).toList.filter (!·.symbols.isEmpty)

/-! ## Who is served -/

/-- Gathering serves what was served before and one demand after the other. -/
theorem mem_foldl_gather (demands : List ImportBlock) (blocks : Registry ImportBlock (·.path))
    (path symbol : String) :
    (∃ block,
      (demands.foldl
        (fun blocks demand =>
          let block := (blocks.find? demand.path).getD { path := demand.path, symbols := [] }
          blocks.put (block.withSymbols demand.symbols))
        blocks).find? path = some block ∧ symbol ∈ block.symbols) ↔
      (∃ block, blocks.find? path = some block ∧ symbol ∈ block.symbols) ∨
        ∃ demand ∈ demands, demand.path = path ∧ symbol ∈ demand.symbols := by
  induction demands generalizing blocks with
  | nil => simp
  | cons demand rest ih =>
    -- the block of the demand is at its path, be it fresh or not
    have hpath : ∀ symbols, (((blocks.find? demand.path).getD
        { path := demand.path, symbols := [] }).withSymbols symbols).path = demand.path := by
      intro symbols
      cases h : blocks.find? demand.path with
      | none => rfl
      | some block =>
        have hblock : block.path = demand.path := Registry.key_eq_of_find?_eq_some h
        exact hblock
    rw [List.foldl_cons, ih, Registry.find?_put, hpath]
    simp only [List.mem_cons, exists_eq_or_imp]
    rw [← or_assoc]
    refine or_congr_left ?_
    by_cases h : demand.path = path
    · subst h
      simp only [if_true, Option.some.injEq, exists_eq_left', ImportBlock.mem_withSymbols,
        true_and]
      cases blocks.find? demand.path <;> simp
    · simp [h]

/-- **Imports serve demands**: a symbol is imported from a path exactly when someone needs it from
there. -/
theorem mem_importBlocks {c : Contract} {path symbol : String} :
    (∃ block ∈ c.importBlocks, block.path = path ∧ symbol ∈ block.symbols) ↔
      ∃ demand ∈ c.importDemands, demand.path = path ∧ symbol ∈ demand.symbols := by
  have hgather := mem_foldl_gather c.importDemands .empty path symbol
  have hempty : (Registry.empty : Registry ImportBlock (·.path)).find? path = none := rfl
  simp only [hempty, reduceCtorEq, false_and, exists_false, false_or] at hgather
  rw [← hgather]
  change _ ↔ ∃ block, (gatherImports c.importDemands).find? path = some block ∧ _
  simp only [Registry.find?_eq_some_iff, importBlocks, List.mem_filter]
  constructor
  · rintro ⟨block, ⟨hblock, -⟩, hpath, hsymbol⟩
    exact ⟨block, ⟨hblock, hpath⟩, hsymbol⟩
  · rintro ⟨block, ⟨hblock, hpath⟩, hsymbol⟩
    refine ⟨block, ⟨hblock, ?_⟩, hpath, hsymbol⟩
    cases hsymbols : block.symbols with
    | nil => simp [hsymbols] at hsymbol
    | cons _ _ => rfl

end Contract

end CairoForge
