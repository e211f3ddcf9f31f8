import CairoForge.Proofs.ContractTexts
import CairoForge.Proofs.MarkedSource

/-!
# What is printed from the texts of a contract

Every line of a source is put together from texts of the contract and fixed texts. A property that
printing keeps is followed from the texts of a contract to the lines of its source, whatever is
renamed, as long as renaming keeps the property too.

## Main definitions

* `Renaming.Keeps` — renamings that keep a property of texts.
* `Outline.EachText` — every text in a routine has a property.

## Main results

* `KeptByPrinting.initializerCalls` — what holds of the calls of initializers.
* `Outline.EachText.text_lines` — what holds of the lines of a routine.
* `Contract.EachText.text_sectionLines`, `Contract.EachText.text_sourceLines` — what holds of the
  lines of a source.
-/

namespace CairoForge

/-- **Renamings that keep a property of texts.** -/
structure Renaming.Keeps (P : String → Prop) (naming : Renaming) : Prop where
  typeName : ∀ text, P text → P (naming.typeName text)
  modulePath : ∀ text, P text → P (naming.modulePath text)
  declaration : ∀ text, P text → P (naming.declaration text)

theorem Renaming.keeps_default (P : String → Prop) : ({} : Renaming).Keeps P where
  typeName _ h := h
  modulePath _ h := h
  declaration _ h := h

/-- A number has a digit, and nothing in it breaks the line. -/
theorem isLegible_decimalText (n : Int) : isLegible (decimalText n) = true := by
  have hdigit : ∀ ch ∈ Nat.toDigits 10 n.natAbs, ch.isDigit = true := fun ch hch =>
    Nat.isDigit_of_mem_toDigits (by decide) (by decide) hch
  have htext : (decimalText n).toList =
      (if n < 0 then ['-'] else []) ++ Nat.toDigits 10 n.natAbs := by
    unfold decimalText decimalDigits
    split <;> simp
  have hunbroken : breaks (decimalText n) = 0 := by
    rw [breaks, htext, List.count_eq_zero, List.mem_append, not_or]
    refine ⟨?_, fun hbreak => absurd (hdigit _ hbreak) (by decide)⟩
    split <;> decide
  obtain ⟨ch, hch⟩ := List.exists_mem_of_ne_nil _ (Nat.toDigits_ne_nil (b := 10) (n := n.natAbs))
  rw [isLegible, hunbroken, htext, Bool.and_eq_true, List.any_eq_true]
  refine ⟨rfl, ch, List.mem_append_right _ hch, ?_⟩
  have hrange := hdigit ch hch
  simp only [Char.isDigit, Bool.and_eq_true, decide_eq_true_eq] at hrange ⊢
  exact ⟨Char.le_trans (by decide) hrange.1, Char.le_trans hrange.2 (by decide)⟩

/-- What a function returns are texts of its template. -/
theorem ContractFunction.results_of_texts {P : String → Prop} {template : FunctionTemplate}
    (h : ∀ text ∈ template.texts, P text) : ∀ result ∈ results template, P result := by
  simp only [FunctionTemplate.texts, List.forall_mem_append, Option.mem_toList] at h
  obtain ⟨⟨-, hreturns⟩, hvalue⟩ := h
  unfold results
  intro result hresult
  split at hresult
  · next value hgiven =>
    obtain rfl := List.mem_singleton.mp hresult
    exact hvalue result hgiven
  · obtain ⟨arg, harg, rfl⟩ := List.mem_map.mp hresult
    exact hreturns _ (List.mem_flatMap.mpr ⟨arg, harg, List.mem_cons_self⟩)

namespace KeptByPrinting

variable {P : String → Prop} (hP : KeptByPrinting P)
include hP

/-- Texts in a row between two others, be it none. -/
theorem enclosed {before after : String} {texts : List String} (hbefore : P before)
    (hafter : isLegible after = true) (htexts : ∀ text ∈ texts, P text) :
    P (before ++ ", ".intercalate texts ++ after) := by
  -- what stands before grows by one text a step, so the first text needs no case of its own
  refine hP.before ?_ hafter
  induction texts generalizing before with
  | nil => simpa using hbefore
  | cons text rest ih =>
    obtain ⟨htext, hrest⟩ := List.forall_mem_cons.mp htexts
    cases rest with
    | nil => simpa using hP.append hbefore htext
    | cons next rest =>
      rw [String.intercalate_cons_cons, ← String.append_assoc, ← String.append_assoc]
      exact ih (hP.before (hP.append hbefore htext) (by decide)) hrest

/-! ## Initializer calls -/

theorem render {v : Value} (h : ∀ text ∈ v.texts, P text) {printed : String}
    (hprinted : v.render = .ok printed) : P printed := by
  induction v generalizing printed with
  | text content =>
    obtain rfl := Except.ok.inj hprinted
    exact hP.between (by decide) (by decide) (List.forall_mem_singleton.mp h)
  | number n =>
    rw [Value.render] at hprinted
    split at hprinted
    · obtain rfl := Except.ok.inj hprinted
      exact hP.legible (isLegible_decimalText _)
    · cases hprinted
  | literal source =>
    obtain rfl := Except.ok.inj hprinted
    exact List.forall_mem_singleton.mp h
  | note remark value ih =>
    obtain ⟨hremark, hvalue⟩ := List.forall_mem_cons.mp h
    cases hinner : value.render with
    | error refusal =>
      rw [Value.render, hinner] at hprinted
      cases hprinted
    | ok inner =>
      rw [Value.render, hinner] at hprinted
      obtain rfl := Except.ok.inj hprinted
      exact hP.before (hP.append (hP.before (ih hvalue hinner) (by decide)) hremark) (by decide)

theorem initializerCall {p : Parent} (h : ∀ text ∈ p.texts, P text) {call : String}
    (hcall : p.initializerCall = .ok call) : P call := by
  obtain ⟨params, hparams, rfl⟩ := Contract.initializerCall_eq_ok_iff.mp hcall
  obtain ⟨hbase, hvalues⟩ := List.forall_mem_append.mp h
  obtain ⟨hname, -⟩ := List.forall_mem_cons.mp hbase
  refine hP.enclosed (hP.before hname (by decide)) (by decide) ?_
  intro printed hprinted
  obtain ⟨v, hv, hrender⟩ :=
    exists_of_mem_forall₂ (mapM_eq_ok_iff_forall₂.mp hparams).flip hprinted
  exact hP.render (fun text htext => hvalues text (List.mem_flatMap.mpr ⟨v, hv, htext⟩)) hrender

theorem initializerCalls {c : Contract} (h : c.EachText P) {calls : List String}
    (hcalls : c.initializerCalls = .ok calls) : ∀ call ∈ calls, P call := by
  intro call hcall
  obtain ⟨p, hp, hprinted⟩ := exists_of_mem_forall₂ (mapM_eq_ok_iff_forall₂.mp hcalls).flip hcall
  exact hP.initializerCall (h.parents p (List.mem_filter.mp hp).1) hprinted

/-! ## Statements -/

theorem baseCall {template : FunctionTemplate} (h : ∀ text ∈ template.texts, P text)
    {base : String} (hbase : P base) : P (ContractFunction.baseCall template base) := by
  have hresults := ContractFunction.results_of_texts h
  simp only [FunctionTemplate.texts, List.forall_mem_append, List.forall_mem_singleton] at h
  obtain ⟨⟨⟨⟨⟨-, hname⟩, -⟩, hargs⟩, -⟩, -⟩ := h
  have hnames : ∀ name ∈ template.args.map (·.name), P name := by
    intro name hmem
    obtain ⟨arg, harg, rfl⟩ := List.mem_map.mp hmem
    exact hargs _ (List.mem_flatMap.mpr ⟨arg, harg, List.mem_cons_self⟩)
  have hcall : P (base ++ "_" ++ template.name ++ "(" ++
      ", ".intercalate (template.args.map (·.name)) ++ ")") :=
    hP.enclosed (hP.before (hP.append (hP.before hbase (by decide)) hname) (by decide))
      (by decide) hnames
  rw [ContractFunction.baseCall_eq]
  unfold ContractFunction.binding
  split
  · exact hP.append (hP.enclosed (hP.legible (by decide)) (by decide) hresults) hcall
  · rwa [String.empty_append]

theorem statements {function : ContractFunction} (h : ∀ text ∈ function.texts, P text) :
    ∀ statement ∈ function.statements, P statement := by
  simp only [ContractFunction.texts, List.forall_mem_append] at h
  obtain ⟨⟨htemplate, hmodifiers⟩, hcode⟩ := h
  simp only [ContractFunction.statements, List.forall_mem_append]
  refine ⟨⟨hmodifiers, ?_⟩, hcode⟩
  intro call hcall
  obtain ⟨base, hbase, rfl⟩ := Option.map_eq_some_iff.mp (Option.mem_toList.mp hcall)
  refine hP.baseCall htemplate (htemplate base ?_)
  simp [FunctionTemplate.texts, hbase]

end KeptByPrinting

/-! ## Routines -/

/-- **Every text in a routine has a property.** -/
structure Outline.EachText (P : String → Prop) (f : Outline) : Prop where
  annotations : ∀ mark ∈ f.annotations, P mark
  name : P f.name
  implicitArgs : ∀ arg ∈ f.implicitArgs, ∀ text ∈ arg.texts, P text
  args : ∀ arg ∈ f.args, ∀ text ∈ arg.texts, P text
  returns : ∀ arg ∈ f.returns?.getD [], ∀ text ∈ arg.texts, P text
  statements : ∀ group ∈ f.statements, ∀ statement ∈ group, P statement
  results : ∀ result ∈ f.results, P result

section

variable {P : String → Prop} (hP : KeptByPrinting P)
include hP

theorem KeptByPrinting.outline {function : ContractFunction}
    (h : ∀ text ∈ function.texts, P text) : function.outline.EachText P := by
  have hstatements := hP.statements h
  simp only [ContractFunction.texts, List.forall_mem_append] at h
  have hresults := ContractFunction.results_of_texts h.1.1
  simp only [FunctionTemplate.texts, List.forall_mem_append, List.forall_mem_singleton,
    List.forall_mem_flatMap] at h
  obtain ⟨⟨⟨⟨⟨⟨⟨-, hname⟩, himplicits⟩, hargs⟩, hreturns⟩, -⟩, -⟩, -⟩ := h
  refine ⟨?_, hname, himplicits, hargs, hreturns, List.forall_mem_singleton.mpr hstatements,
    hresults⟩
  intro mark hmark
  obtain ⟨kind, -, rfl⟩ := Option.map_eq_some_iff.mp (Option.mem_toList.mp hmark)
  cases kind with
  | view => exact hP.legible (by decide)
  | external => exact hP.legible (by decide)

/-- What initializes a contract has texts of the contract and fixed texts. -/
theorem KeptByPrinting.initializingOutlines {c : Contract} (h : c.EachText P)
    {calls : List String} (hcalls : c.initializerCalls = .ok calls) :
    ∀ f ∈ c.initializingOutlines calls, f.EachText P := by
  have himplicits : ∀ arg ∈ Argument.implicits, ∀ text ∈ arg.texts, P text := by
    have hlegible : ∀ arg ∈ Argument.implicits, ∀ text ∈ arg.texts, isLegible text = true := by
      decide
    exact fun arg harg text htext => hP.legible (hlegible arg harg text htext)
  have hguard : ∀ guard ∈ c.onceGuard, P guard := by
    intro guard hguard
    obtain ⟨-, hmem⟩ := List.mem_ite_nil_right.mp hguard
    obtain rfl := List.mem_singleton.mp hmem
    exact hP.legible (by decide)
  have hbody : ∀ group ∈ [c.onceGuard ++ calls, c.constructorCode],
      ∀ statement ∈ group, P statement := by
    simp only [List.forall_mem_cons, List.forall_mem_append]
    exact ⟨⟨hguard, hP.initializerCalls h hcalls⟩, h.constructorCode, nofun⟩
  have hconstructor : P "constructor" := hP.legible (by decide)
  have hinitializer : P "initializer" := hP.legible (by decide)
  intro f hf
  unfold Contract.initializingOutlines at hf
  dsimp only at hf
  split at hf
  · simp only [List.mem_cons, List.not_mem_nil, or_false] at hf
    rcases hf with rfl | rfl
    · -- the constructor of an implementation takes nothing and has the guard alone
      refine ⟨?_, hconstructor, himplicits, nofun, nofun,
        List.forall_mem_singleton.mpr hguard, nofun⟩
      simp only [List.forall_mem_cons]
      exact ⟨hP.legible (by decide), hP.legible (by decide), nofun⟩
    · exact ⟨List.forall_mem_singleton.mpr (hP.legible (by decide)), hinitializer, himplicits,
        h.constructorArgs, nofun, hbody, nofun⟩
  · obtain rfl := List.mem_singleton.mp hf
    exact ⟨List.forall_mem_singleton.mpr (hP.legible (by decide)), hconstructor, himplicits,
      h.constructorArgs, nofun, hbody, nofun⟩

/-! ## Lines of a routine -/

theorem KeptByPrinting.withCommas {items : List String} (h : ∀ item ∈ items, P item) :
    ∀ item ∈ Routine.withCommas items, P item := by
  induction items with
  | nil => exact nofun
  | cons item rest ih =>
    obtain ⟨hitem, hrest⟩ := List.forall_mem_cons.mp h
    cases rest with
    | nil => exact List.forall_mem_singleton.mpr hitem
    | cons next rest =>
      exact List.forall_mem_cons.mpr ⟨hP.before hitem (by decide), ih hrest⟩

/-- What stands below the head of a routine: statements in groups, and what is returned. -/
theorem Outline.EachText.rows_body {f : Outline} (h : f.EachText P) :
    (∀ group ∈ (f.statements.filter (!·.isEmpty)).map (·.map ("    " ++ ·)),
      ∀ row ∈ group, P row) ∧
    P ("    return (" ++ ", ".intercalate f.results ++ ")") := by
  refine ⟨?_, hP.enclosed (hP.legible (by decide)) (by decide) h.results⟩
  intro group hgroup row hrow
  obtain ⟨statements, hstatements, rfl⟩ := List.mem_map.mp hgroup
  obtain ⟨statement, hstatement, rfl⟩ := List.mem_map.mp hrow
  exact hP.indent (h.statements statements (List.mem_filter.mp hstatements).1 statement hstatement)

section

variable {naming : Renaming} (hnaming : naming.Keeps P)
include hnaming

theorem KeptByPrinting.argument {arg : Argument} (h : ∀ text ∈ arg.texts, P text) :
    P (arg.render naming) := by
  obtain ⟨hname, htype⟩ := List.forall_mem_cons.mp h
  unfold Argument.render
  split
  · next type hsome =>
    have hkept : P type := htype type (Option.mem_toList.mpr hsome)
    refine hP.append (hP.before hname (by decide)) ?_
    split
    · exact hnaming.typeName type hkept
    · exact hkept
  · exact hname

theorem KeptByPrinting.arguments {args : List Argument}
    (h : ∀ arg ∈ args, ∀ text ∈ arg.texts, P text) :
    ∀ printed ∈ args.map (Argument.render naming), P printed := by
  intro printed hprinted
  obtain ⟨arg, harg, rfl⟩ := List.mem_map.mp hprinted
  exact hP.argument hnaming (h arg harg)

variable {f : Outline} (h : f.EachText P)
include h

theorem Outline.EachText.text_headEnd : P (Line.text naming f.headEnd) := by
  have hargs : P ("(" ++ ", ".intercalate (f.args.map (Argument.render naming)) ++ ")") :=
    hP.enclosed (hP.legible (by decide)) (by decide) (hP.arguments hnaming h.args)
  have hreturns := hP.arguments hnaming h.returns
  rw [f.text_headEnd naming]
  unfold Routine.headEnd Outline.routine
  cases hresults : f.returns? with
  | none =>
    simp only [Option.map_none, String.append_empty]
    exact hP.before hargs (by decide)
  | some returns =>
    rw [hresults] at hreturns
    have hlisted : P (" -> (" ++ ", ".intercalate (returns.map (Argument.render naming)) ++ ")") :=
      hP.enclosed (hP.legible (by decide)) (by decide) hreturns
    exact hP.before (hP.append hargs hlisted) (by decide)

/-- What stands above the statements of a routine. -/
theorem Outline.EachText.text_opening :
    ∀ line ∈ f.annotations.map Line.plain ++ f.head, P (Line.text naming line) := by
  have hend := h.text_headEnd hP hnaming
  have hname : P ("func " ++ f.name) := hP.behind (by decide) h.name
  refine List.forall_mem_append.mpr ⟨?_, ?_⟩
  · intro line hline
    obtain ⟨mark, hmark, rfl⟩ := List.mem_map.mp hline
    rw [Line.text_plain]
    exact h.annotations mark hmark
  · unfold Outline.head
    split
    · exact List.forall_mem_singleton.mpr (hP.append hname hend)
    · simp only [List.forall_mem_cons, List.forall_mem_append]
      refine ⟨?_, ?_, hP.behind (show isLegible "    \x7d" = true by decide) hend, nofun⟩
      · rw [Line.text_plain]
        exact hP.before hname (by decide)
      · -- an implicit argument stands in a line of its own, indented twice
        intro line hline
        have hrow := List.mem_map_of_mem (f := Line.text naming) hline
        rw [Argument.text_implicitLines, List.mem_map] at hrow
        obtain ⟨item, hitem, hrow⟩ := hrow
        rw [← hrow]
        exact hP.spaced (by decide)
          (hP.withCommas (hP.arguments hnaming h.implicitArgs) item hitem)

/-- The lines of a routine, but for empty lines between groups of statements. -/
theorem Outline.EachText.text_lines :
    ∀ line ∈ f.lines, P (Line.text naming line) ∨ line = .plain "" := by
  obtain ⟨hrows, hreturn⟩ := h.rows_body hP
  have hend : P "end" := hP.legible (by decide)
  refine forall_mem_lines (fun line hline => .inl (h.text_opening hP hnaming line hline)) ?_
    (.inl hend)
  intro row hrow
  rw [Line.text_plain]
  rcases List.mem_append.mp hrow with hstatement | hlast
  · rcases mem_of_mem_intercalate hstatement with hblank | ⟨group, hgroup, hmem⟩
    · exact .inr (congrArg _ (List.mem_singleton.mp hblank))
    · exact .inl (hrows group hgroup row hmem)
  · exact .inl (List.mem_singleton.mp hlast ▸ hreturn)

/-- The lines of a routine with one group of statements. -/
theorem Outline.EachText.text_lines_of_statements_eq {group : List String}
    (hgroup : f.statements = [group]) : ∀ line ∈ f.lines, P (Line.text naming line) := by
  obtain ⟨-, hreturn⟩ := h.rows_body hP
  have hend : P "end" := hP.legible (by decide)
  refine forall_mem_lines (h.text_opening hP hnaming) ?_ hend
  rw [body_of_statements_eq hgroup]
  intro row hrow
  rw [Line.text_plain]
  rcases List.mem_append.mp hrow with hstatement | hlast
  · obtain ⟨statement, hmem, rfl⟩ := List.mem_map.mp hstatement
    exact hP.indent (h.statements group (hgroup ▸ List.mem_singleton_self group) statement hmem)
  · exact List.mem_singleton.mp hlast ▸ hreturn

end

/-! ## Lines of a source -/

namespace Contract

variable {c : Contract} (h : c.EachText P)
include h

/-- What is demanded of a path are names of modules and functions, put together. -/
theorem EachText.importDemands :
    ∀ demand ∈ c.importDemands, P demand.path ∧ ∀ symbol ∈ demand.symbols, P symbol := by
  have hbase : ∀ p ∈ c.parents, P p.base.name ∧ P p.base.path ∧ ∀ symbol ∈ p.base.symbols,
      P symbol := by
    intro p hp
    obtain ⟨htexts, -⟩ := List.forall_mem_append.mp (h.parents p hp)
    simpa only [BaseModule.texts, List.forall_mem_cons] using htexts
  simp only [Contract.importDemands, List.forall_mem_append, List.forall_mem_map]
  refine ⟨⟨?_, ?_⟩, ?_⟩
  · intro p hp
    obtain ⟨hname, hpath, hsymbols⟩ := hbase p hp
    refine ⟨hP.dotted hpath, List.forall_mem_append.mpr ⟨?_, hsymbols⟩⟩
    intro symbol hsymbol
    obtain ⟨-, hmem⟩ := List.mem_ite_nil_right.mp hsymbol
    obtain rfl := List.mem_singleton.mp hmem
    exact hP.before hname (by decide)
  · intro demand hdemand
    obtain ⟨function, hfunction, hsome⟩ := List.mem_filterMap.mp hdemand
    -- the base module that is called, and the name of the function in it
    obtain ⟨name, hname, hsome⟩ := Option.bind_eq_some_iff.mp hsome
    obtain ⟨p, hp, hsome⟩ := Option.bind_eq_some_iff.mp hsome
    obtain rfl := Option.some.inj hsome
    have htexts := h.functions function hfunction
    simp only [ContractFunction.texts, FunctionTemplate.texts, List.forall_mem_append,
      List.forall_mem_singleton, Option.mem_toList] at htexts
    obtain ⟨⟨⟨⟨⟨⟨⟨hcalled, hfunctionName⟩, -⟩, -⟩, -⟩, -⟩, -⟩, -⟩ := htexts
    refine ⟨hP.dotted (hbase p (List.mem_of_find?_eq_some hp)).2.1, ?_⟩
    exact List.forall_mem_singleton.mpr
      (hP.append (hP.before (hcalled name hname) (by decide)) hfunctionName)
  · intro a ha
    have htexts := h.libraries a ha
    simp only [BaseModule.texts, List.forall_mem_cons] at htexts
    exact ⟨hP.dotted htexts.2.1, List.forall_mem_singleton.mpr htexts.1⟩

theorem EachText.importBlocks :
    ∀ block ∈ c.importBlocks, P block.path ∧ ∀ symbol ∈ block.symbols, P symbol := by
  intro block hblock
  have hserved : ∀ symbol ∈ block.symbols, P block.path ∧ P symbol := by
    intro symbol hsymbol
    obtain ⟨demand, hdemand, hpath, hmem⟩ :=
      mem_importBlocks.mp ⟨block, hblock, rfl, hsymbol⟩
    obtain ⟨hkept, hsymbols⟩ := h.importDemands hP demand hdemand
    exact ⟨hpath ▸ hkept, hsymbols symbol hmem⟩
  -- a block has a symbol, so its path is that of a demand
  have hsome : block.symbols ≠ [] := by simpa using (List.mem_filter.mp hblock).2
  obtain ⟨symbol, hsymbol⟩ := List.exists_mem_of_ne_nil _ hsome
  exact ⟨(hserved symbol hsymbol).1, fun other hother => (hserved other hother).2⟩

theorem EachText.text_importLines {naming : Renaming} (hnaming : naming.Keeps P) :
    ∀ line ∈ c.importBlocks.flatMap blockLines, P (Line.text naming line) := by
  intro line hline
  obtain ⟨block, hblock, hline⟩ := List.mem_flatMap.mp hline
  obtain ⟨hpath, hsymbols⟩ := h.importBlocks hP block hblock
  rcases List.mem_cons.mp hline with rfl | hplain
  · have hopen : P ("from " ++ (naming.modulePath block.path ++ " import (")) :=
      hP.behind (by decide) (hP.before (hnaming.modulePath _ hpath) (by decide))
    simpa [Piece.text] using hopen
  · obtain ⟨row, hrow, rfl⟩ := List.mem_map.mp hplain
    rw [Line.text_plain]
    rcases List.mem_append.mp hrow with hsymbol | hclose
    · obtain ⟨symbol, hmem, rfl⟩ := List.mem_map.mp hsymbol
      exact hP.before (hP.indent (hsymbols symbol hmem)) (by decide)
    · exact List.mem_singleton.mp hclose ▸ hP.legible (by decide)

/-- **The lines of each section of a source**: only what initializes a contract has empty lines. -/
theorem EachText.text_sectionLines {naming : Renaming} (hnaming : naming.Keeps P)
    {calls : List String} :
    ∀ lines ∈ c.sectionLines calls, (∀ line ∈ lines, P (Line.text naming line)) ∨
      ∃ f ∈ c.initializingOutlines calls, lines = f.lines := by
  -- rows that no renaming touches
  have hplain : ∀ rows : List String, (∀ row ∈ rows, P row) →
      ∀ line ∈ rows.map Line.plain, P (Line.text naming line) := by
    intro rows hrows line hline
    obtain ⟨row, hrow, rfl⟩ := List.mem_map.mp hline
    rw [Line.text_plain]
    exact hrows row hrow
  intro lines hlines
  cases isSection_of_mem_sectionLines hlines with
  | license =>
    have hlicense : P ("# SPDX-License-Identifier: " ++ c.license) :=
      hP.behind (by decide) h.license
    exact .inl (hplain _ (List.forall_mem_singleton.mpr hlicense))
  | fixed hrows =>
    have hlegible : ∀ rows ∈ [["%lang starknet"], Document.builtinImports, Document.divider],
        ∀ row ∈ rows, isLegible row = true := by decide
    exact .inl (hplain _ fun row hrow => hP.legible (hlegible _ hrows row hrow))
  | imports => exact .inl (h.text_importLines hP hnaming)
  | tags =>
    refine .inl (hplain _ fun row hrow => ?_)
    obtain ⟨tag, htag, rfl⟩ := List.mem_map.mp hrow
    obtain ⟨hkey, hvalue⟩ := h.tags tag htag
    rw [Document.tagLine, String.append_assoc]
    exact hP.append (hP.behind (by decide) hkey) (hP.spaced (by decide) hvalue)
  | declarations =>
    refine .inl fun line hline => ?_
    obtain ⟨declaration, hdeclaration, rfl⟩ := List.mem_map.mp hline
    have hkept := hnaming.declaration _ (h.declarations declaration hdeclaration)
    simpa [Piece.text] using hkept
  | initializing hf => exact .inr ⟨_, hf, rfl⟩
  | @function function hfunction =>
    have houtline := hP.outline (h.functions function hfunction)
    exact .inl (houtline.text_lines_of_statements_eq hP hnaming rfl)

/-- **The lines of a source**, but for the empty ones between others. -/
theorem EachText.text_sourceLines {naming : Renaming} (hnaming : naming.Keeps P)
    {calls : List String} (hcalls : c.initializerCalls = .ok calls) :
    ∀ line ∈ c.sourceLines calls, P (Line.text naming line) ∨ line = .plain "" := by
  intro line hline
  rcases mem_of_mem_intercalate hline with hblank | ⟨lines, hlines, hmem⟩
  · exact .inr (List.mem_singleton.mp hblank)
  · rcases h.text_sectionLines hP hnaming lines (List.mem_filter.mp hlines).1 with
      hkept | ⟨f, hf, rfl⟩
    · exact .inl (hkept line hmem)
    · exact (hP.initializingOutlines h hcalls f hf).text_lines hP hnaming line hmem

end Contract

end

end CairoForge
