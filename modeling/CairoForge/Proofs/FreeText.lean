import CairoForge.Proofs.SourceLines
import CairoForge.Proofs.TwinRuns
import CairoForge.Request

/-!
# Free text in the source of a token

Name, symbol, license and security contact of a token are free text. They stand in the source as
they are, in four rows at most, and no other row depends on them.

## Main definitions

* `TokenOptions.SameChoices` — the same token but for its texts and decimals.
* `TokenOptions.freeRows` — the rows of the source that free text stands in.

## Main results

* `TokenOptions.twins_assembled` — tokens of the same choices are twins.
* `TokenOptions.heading_document`, `TokenOptions.constructors_document` — what a token shows.
* `TokenOptions.related_documents` — the documents of such tokens differ in the free rows only.
* `TokenOptions.source_eq` — valid options have a source, the rows of a document.
-/

namespace CairoForge

/-! ## Rows of an initializer -/

/-- Routines that initialize a contract have related rows when the initializer calls have. -/
theorem Contract.forall₂_rows_initializing {R : String → String → Prop} (hrefl : ∀ row, R row row)
    (c : Contract) (naming : Renaming) {calls calls' : List String}
    (h : List.Forall₂ (fun s s' => R (Layout.indentation 1 ++ s) (Layout.indentation 1 ++ s'))
      calls calls') :
    List.Forall₂ (fun r r' => List.Forall₂ R (Layout.rows r.layout) (Layout.rows r'.layout))
      (c.initializing naming calls) (c.initializing naming calls') := by
  have hself := forall₂_self (S := fun s s' =>
    R (Layout.indentation 1 ++ s) (Layout.indentation 1 ++ s')) fun s => hrefl _
  have hroutine : ∀ annotations name args, List.Forall₂ R
      (Layout.rows (Routine.initializing naming annotations name args
        [c.onceGuard ++ calls, c.constructorCode]).layout)
      (Layout.rows (Routine.initializing naming annotations name args
        [c.onceGuard ++ calls', c.constructorCode]).layout) := fun annotations name args =>
    Routine.forall₂_rows hrefl rfl rfl
      (.cons (List.rel_append (hself _) h) (.cons (hself _) .nil))
  unfold initializing
  split
  · -- the constructor behind a proxy calls no initializer
    exact .cons (forall₂_self hrefl _) (.cons (hroutine _ _ _) .nil)
  · exact .cons (hroutine _ _ _) .nil

namespace TokenOptions

/-! ## Tokens that differ in text -/

/-- The same token but for name, symbol, decimals, license, and what the security contact is. -/
structure SameChoices (o o' : TokenOptions) : Prop where
  burnable : o.burnable = o'.burnable
  snapshots : o.snapshots = o'.snapshots
  pausable : o.pausable = o'.pausable
  mintable : o.mintable = o'.mintable
  permit : o.permit = o'.permit
  votes : o.votes = o'.votes
  flashmint : o.flashmint = o'.flashmint
  access : o.shared.access = o'.shared.access
  upgradeable : o.shared.upgradeable = o'.shared.upgradeable
  /-- Both name a security contact, or neither does. -/
  contact : o.shared.info.securityContact.isEmpty = o'.shared.info.securityContact.isEmpty

/-- The base module of the token, with the arguments of its initializer. -/
def tokenParent (o : TokenOptions) : Parent :=
  ⟨.erc20, [.text o.name, .text o.symbol, .number (.ofNat o.decimals.toNat),
    .literal "initial_supply", .literal "recipient"]⟩

/-- The base module of permits, with the argument of its initializer. -/
def permitParent (o : TokenOptions) : Parent :=
  ⟨.erc20Permit, [.text o.name]⟩

/-- Base modules of two tokens that stand for each other. -/
inductive Corresponding (o o' : TokenOptions) : Parent → Parent → Prop
  | same (p : Parent) : Corresponding o o' p p
  | token : Corresponding o o' o.tokenParent o'.tokenParent
  | permit (hpermit : o.permit = true) (hpermit' : o'.permit = true) :
      Corresponding o o' o.permitParent o'.permitParent

theorem Corresponding.alike {o o' : TokenOptions} {p q : Parent} (h : o.Corresponding o' p q) :
    p.Alike q := by
  cases h <;> exact ⟨rfl, rfl⟩

/-- The mixins of a token but for the last one, which describes it. -/
def undescribedMixins (o : TokenOptions) : List Mixin :=
  o.extensions ++
    ((if o.pausable then [.pausing o.shared.access o.pausedEntryPoints] else []) ++
      [.upgrading o.shared.upgradeable o.shared.access])

theorem mixins_eq_concat (o : TokenOptions) :
    o.mixins = o.undescribedMixins ++ [.metadata o.shared.info] := by
  rw [mixins_eq, undescribedMixins, List.append_assoc, List.append_assoc]
  rfl

/-- The assembly of a token as a run, before the token is described. -/
def assembly (o : TokenOptions) : List Operation :=
  [.addConstructorArg (EntryPoint.wide "initial_supply"),
      .addConstructorArg (EntryPoint.felt "recipient"),
      .addParent .erc20 o.tokenParent.params] ++
    EntryPoint.standard.map .addFunction ++ o.undescribedMixins.flatMap Mixin.operations

theorem assembled_eq_run {o : TokenOptions} (h : o.validate = .ok ()) :
    o.assembled = (Contract.new o.name).run (o.assembly ++ [.describe o.shared.info]) := by
  rw [assembled, Mixin.foldl_apply_eq_run (allAccepted_mixins h), mixins_eq_concat,
    List.flatMap_append, assembly, List.append_assoc, Contract.run_append (Contract.new o.name)]
  rfl

section

variable {o o' : TokenOptions} (hchoices : o.SameChoices o')
include hchoices

/-- The same choices ask for the same mixins but for the name in permits. -/
theorem SameChoices.forall₂_mixins {S : Mixin → Mixin → Prop} (hsame : ∀ mixin, S mixin mixin)
    (hpermit : o.permit = true → S (.permit o.name) (.permit o'.name)) :
    List.Forall₂ S o.undescribedMixins o'.undescribedMixins := by
  have hself := forall₂_self hsame
  have hpaused : o.pausedEntryPoints = o'.pausedEntryPoints := by
    rw [pausedEntryPoints, pausedEntryPoints, hchoices.burnable, hchoices.mintable,
      hchoices.permit, hchoices.flashmint]
  rw [undescribedMixins, undescribedMixins, extensions, extensions, mixinsBeforeVotes,
    mixinsBeforeVotes, hchoices.burnable, hchoices.snapshots, hchoices.mintable, hchoices.permit,
    hchoices.votes, hchoices.flashmint, hchoices.pausable, hchoices.access, hchoices.upgradeable,
    hpaused]
  -- of the mixins that come in order, the one for permits is the only one with a text
  refine List.rel_append (List.rel_append (List.rel_append (List.rel_append (hself _) ?_)
    (hself _)) (hself _)) (hself _)
  split
  · next hasked => exact .cons (hpermit (hchoices.permit.trans hasked)) .nil
  · exact .nil

theorem SameChoices.forall₂_assembly :
    List.Forall₂ (Operation.Twins (o.Corresponding o')) o.assembly o'.assembly := by
  have hself := forall₂_self (S := Operation.Twins (o.Corresponding o')) .same
  have hmixins := hchoices.forall₂_mixins
    (S := fun mixin mixin' => List.Forall₂ (Operation.Twins (o.Corresponding o'))
      mixin.operations mixin'.operations)
    (fun mixin => hself _) fun hpermit =>
      .cons (.addParent (.permit hpermit (hchoices.permit ▸ hpermit))) (hself _)
  -- before the mixins, only the base module of the token takes texts
  refine List.rel_append (List.rel_append ?_ (hself _)) (List.rel_flatMap hmixins fun _ _ h => h)
  exact .cons (.same _) (.cons (.same _) (.cons (.addParent .token) .nil))

/-- **Tokens of the same choices are twins.** -/
theorem twins_assembled (h : o.validate = .ok ()) (h' : o'.validate = .ok ()) :
    o.assembled.Twins (o.Corresponding o') o'.assembled := by
  rw [assembled_eq_run h, assembled_eq_run h']
  exact (Contract.twins_new _ _ _).run (fun hpq => hpq.alike.base) .same
    (List.rel_append hchoices.forall₂_assembly (.cons (.describe _ _) .nil))

end

end TokenOptions

/-- Only the mixin for metadata describes a contract. -/
theorem Mixin.describes_operations {mixin : Mixin} (h : ∀ info, mixin ≠ .metadata info) :
    ∀ operation ∈ mixin.operations, operation.describes = false := by
  cases mixin with
  | metadata info => exact absurd rfl (h info)
  | _ => simp [operations, Operation.describes]

namespace TokenOptions

theorem describes_assembly (o : TokenOptions) :
    ∀ operation ∈ o.assembly, operation.describes = false := by
  intro operation hoperation
  rcases List.mem_append.mp hoperation with hbase | hmixin
  · have hall : ∀ operation ∈ [Operation.addConstructorArg (EntryPoint.wide "initial_supply"),
        .addConstructorArg (EntryPoint.felt "recipient"), .addParent .erc20 o.tokenParent.params] ++
          EntryPoint.standard.map .addFunction, operation.describes = false := by
      simp [Operation.describes]
    exact hall operation hbase
  · -- the one mixin that describes is the last one, which is left out here
    obtain ⟨mixin, hmixin, hmem⟩ := List.mem_flatMap.mp hmixin
    refine Mixin.describes_operations ?_ operation hmem
    rintro info rfl
    simp [undescribedMixins, extensions, mixinsBeforeVotes] at hmixin

/-- The license that the source of a token names. -/
def printedLicense (o : TokenOptions) : String :=
  if o.shared.info.license.isEmpty then "MIT" else o.shared.info.license

/-- The tags in the source of a token: whom to turn to, if there is someone. -/
def printedTags (o : TokenOptions) : List Tag :=
  if o.shared.info.securityContact.isEmpty then []
  else [⟨Metadata.contactKey, o.shared.info.securityContact⟩]

/-- A token is assembled first and described then. -/
theorem assembled_eq {o : TokenOptions} (h : o.validate = .ok ()) :
    o.assembled =
      { (Contract.new o.name).run o.assembly with
        license := o.printedLicense
        tags := o.printedTags } := by
  obtain ⟨hlicense, htags⟩ := (Contract.new o.name).heading_run o.describes_assembly
  rw [assembled_eq_run h, Contract.run_append, Contract.run_cons, Contract.run_nil,
    Operation.attempt, Contract.describe_eq, hlicense, htags]
  rfl

/-! ## Documents of tokens that differ in text -/

/-- The rows of the source that free text stands in: license, security contact, and the calls that
initialize the token and, if it has them, its permits. -/
def freeRows (o : TokenOptions) : List String :=
  ["# SPDX-License-Identifier: " ++ o.printedLicense,
      "# @custom:security-contact " ++ o.shared.info.securityContact,
      "    ERC20_initializer('" ++ o.name ++ "', '" ++ o.symbol ++ "', " ++
        decimalText o.decimals.toNat ++ ", initial_supply, recipient)"] ++
    (if o.permit then ["    ERC20Permit_initializer('" ++ o.name ++ "')"] else [])

/-- Rows of two sources that are the same, or the same row of free text. -/
def SameRow (o o' : TokenOptions) (row row' : String) : Prop :=
  row = row' ∨ (row, row') ∈ o.freeRows.zip o'.freeRows

theorem initializerCall_tokenParent (o : TokenOptions) :
    ∃ call, o.tokenParent.initializerCall = .ok call ∧
      Layout.indentation 1 ++ call =
        "    ERC20_initializer('" ++ o.name ++ "', '" ++ o.symbol ++ "', " ++
          decimalText o.decimals.toNat ++ ", initial_supply, recipient)" := by
  simp only [Parent.initializerCall, tokenParent, List.mapM_cons, render_decimals]
  refine ⟨_, rfl, String.toList_inj.mp ?_⟩
  simp [Routine.commaSeparated, Layout.indentation, BaseModule.initializerSymbol,
    BaseModule.erc20]

theorem initializerCall_permitParent (o : TokenOptions) :
    ∃ call, o.permitParent.initializerCall = .ok call ∧
      Layout.indentation 1 ++ call = "    ERC20Permit_initializer('" ++ o.name ++ "')" := by
  refine ⟨_, rfl, String.toList_inj.mp ?_⟩
  simp [Routine.commaSeparated, Layout.indentation, BaseModule.initializerSymbol, permitParent,
    BaseModule.erc20Permit]

section

variable {o o' : TokenOptions}

/-- Corresponding base modules are initialized alike, or in rows of free text. -/
theorem Corresponding.sameRow {p q : Parent} (h : o.Corresponding o' p q) {call call' : String}
    (hcall : p.initializerCall = .ok call) (hcall' : q.initializerCall = .ok call') :
    o.SameRow o' (Layout.indentation 1 ++ call) (Layout.indentation 1 ++ call') := by
  cases h with
  | same =>
    obtain rfl := Except.ok.inj (hcall.symm.trans hcall')
    exact .inl rfl
  | token =>
    obtain ⟨_, hok, hrow⟩ := o.initializerCall_tokenParent
    obtain ⟨_, hok', hrow'⟩ := o'.initializerCall_tokenParent
    obtain rfl := Except.ok.inj (hcall.symm.trans hok)
    obtain rfl := Except.ok.inj (hcall'.symm.trans hok')
    rw [hrow, hrow']
    exact .inr (by simp [freeRows])
  | permit hpermit hpermit' =>
    obtain ⟨_, hok, hrow⟩ := o.initializerCall_permitParent
    obtain ⟨_, hok', hrow'⟩ := o'.initializerCall_permitParent
    obtain rfl := Except.ok.inj (hcall.symm.trans hok)
    obtain rfl := Except.ok.inj (hcall'.symm.trans hok')
    rw [hrow, hrow']
    exact .inr (by simp [freeRows, hpermit, hpermit'])

theorem SameChoices.forall₂_tags (hchoices : o.SameChoices o') :
    List.Forall₂
      (fun tag tag' => o.SameRow o' (Document.tagLine tag) (Document.tagLine tag'))
      o.printedTags o'.printedTags := by
  have hline : ∀ contact, Document.tagLine ⟨Metadata.contactKey, contact⟩ =
      "# @custom:security-contact " ++ contact := fun contact =>
    congrArg (· ++ contact) (show "# " ++ Metadata.contactKey ++ " " = _ by decide)
  rw [printedTags, printedTags, hchoices.contact]
  split
  · exact .nil
  · refine .cons ?_ .nil
    rw [hline, hline]
    exact .inr (by simp [freeRows])

/-- A token shows its license and its tags. -/
theorem heading_document (h : o.validate = .ok ()) {d : Document}
    (hd : o.assembled.document {} = .ok d) :
    d.license = o.printedLicense ∧ d.tags = o.printedTags := by
  obtain ⟨routines, -, rfl⟩ := Contract.document_eq_ok_iff.mp hd
  change o.assembled.license = _ ∧ o.assembled.tags = _
  rw [assembled_eq h]
  exact ⟨rfl, rfl⟩

/-- What initializes a token calls the initializers of its base modules. -/
theorem constructors_document (h : o.validate = .ok ()) {d : Document}
    (hd : o.assembled.document {} = .ok d) :
    ∃ calls, o.assembled.initializerCalls = .ok calls ∧
      d.constructors = o.assembled.initializing {} calls := by
  have hclosed := (composed_assembled h).closed
  obtain ⟨calls, hcalls, -⟩ := hclosed.initializerCalls
  obtain ⟨routines, hroutines, rfl⟩ := Contract.document_eq_ok_iff.mp hd
  rw [Contract.constructors_eq, if_pos hclosed.hasConstructor, hcalls] at hroutines
  exact ⟨calls, hcalls, (Except.ok.inj hroutines).symm⟩

variable (h : o.validate = .ok ()) (h' : o'.validate = .ok ()) (hchoices : o.SameChoices o')
include h h' hchoices

theorem forall₂_initializerCalls {calls calls' : List String}
    (hcalls : o.assembled.initializerCalls = .ok calls)
    (hcalls' : o'.assembled.initializerCalls = .ok calls') :
    List.Forall₂
      (fun s s' => o.SameRow o' (Layout.indentation 1 ++ s) (Layout.indentation 1 ++ s'))
      calls calls' := by
  have hparents := (twins_assembled hchoices h h').forall₂_parents fun hpq => hpq.alike.base
  have hcalled := Parent.forall₂_filter (fun hpq => hpq.alike.base) BaseModule.hasInitializer
    hparents
  exact forall₂_of_mapM_eq_ok (hcalled.imp fun p q hpq call call' => hpq.sameRow) hcalls hcalls'

/-- **The documents of two tokens of the same choices** differ in the free rows only. -/
theorem related_documents {d d' : Document} (hd : o.assembled.document {} = .ok d)
    (hd' : o'.assembled.document {} = .ok d') : d.Related (o.SameRow o') d' := by
  have hframe := (twins_assembled hchoices h h').sameFrame Corresponding.alike
  -- both have a constructor of one shape, so only the initializer calls in it are to be compared
  obtain ⟨calls, hcalls, hconstructors⟩ := constructors_document h hd
  obtain ⟨calls', hcalls', hconstructors'⟩ := constructors_document h' hd'
  obtain ⟨routines, -, rfl⟩ := Contract.document_eq_ok_iff.mp hd
  obtain ⟨routines', -, rfl⟩ := Contract.document_eq_ok_iff.mp hd'
  exact {
    license := by
      rw [assembled_eq h, assembled_eq h']
      exact .inr (by simp [freeRows])
    imports := by rw [hframe.importBlocks]
    tags := by
      rw [assembled_eq h, assembled_eq h']
      exact hchoices.forall₂_tags
    declarations := by rw [hframe.declarations]
    constructors := by
      rw [hconstructors, hconstructors', ← hframe.initializing]
      exact Contract.forall₂_rows_initializing (fun row => .inl rfl) _ _
        (forall₂_initializerCalls h h' hchoices hcalls hcalls')
    withCode := hframe.routines {} .withCode
    guarded := hframe.routines {} .guarded
    passThrough := hframe.routines {} .passThrough }

end

/-- Valid options have a source, the text of the rows of a document. -/
theorem source_eq {o : TokenOptions} (h : o.validate = .ok ()) :
    ∃ d, o.assembled.document {} = .ok d ∧
      (Request.token o).source = .ok (textOfRows d.rows) := by
  obtain ⟨d, hd, -⟩ := (composed_assembled h).closed.document {}
  have hsource : o.assembled.source {} = .ok (textOfRows d.rows) :=
    Contract.source_eq_ok_iff.mpr ⟨d, hd, d.render_eq_textOfRows⟩
  refine ⟨d, hd, ?_⟩
  rw [Request.source, Request.build, build_eq h]
  exact hsource

end TokenOptions

end CairoForge
