import CairoForge.Proofs.ImportSection
import CairoForge.Proofs.RefusedOptions

/-!
# The source identifies the token

Names may hold blanks, commas, parentheses and line feeds, and the name of the contract is not
printed at all. Still no two tokens share a source unless they are built into one contract. The
imports tell the features, and the access mode where it matters. Tokens that agree so far have
sources that agree up to the call that initializes the token; in it a quote ends the name and
another one the symbol, since neither holds one.

## Main results

* `Contract.exists_rows_initializing` — what stands above the first initializer call.
* `TokenOptions.exists_document_rows` — tokens of one frame have the same rows above it.
* `TokenOptions.initializerRow_inj` — the call tells name, symbol and decimals.
* `TokenOptions.source_identifies` — tokens of one source are built into one contract.
-/

namespace CairoForge

/-! ## Rows up to the first call -/

theorem intercalate_append_cons {α : Type} (separator first : List α)
    (groups rest : List (List α)) :
    separator.intercalate (groups ++ first :: rest) =
      groups.flatMap (· ++ separator) ++ separator.intercalate (first :: rest) := by
  induction groups with
  | nil => rfl
  | cons group groups ih =>
    have hcons : groups ++ first :: rest ≠ [] := by simp
    obtain ⟨next, others, hnext⟩ := List.exists_cons_of_ne_nil hcons
    rw [List.cons_append, hnext, List.intercalate_cons_cons, ← hnext, ih, List.flatMap_cons,
      ← List.append_assoc]

/-- The rows of a constructor or initializer above its first call, whatever it calls. -/
theorem exists_initializingRows (naming : Renaming) (annotations : List String) (name : String)
    (args : List Argument) (guard code : List String) :
    ∃ before, ∀ call more, ∃ after,
      initializingRows naming annotations name args [guard ++ call :: more, code] =
        before ++ ("    " ++ call) :: after := by
  refine ⟨annotations ++ ["func " ++ name ++ "\x7b", "        syscall_ptr: felt*,",
      "        pedersen_ptr: " ++ naming.typeName "HashBuiltin*" ++ ",", "        range_check_ptr",
      "    \x7d(" ++ ", ".intercalate (args.map (Argument.render naming)) ++ "):"] ++
    guard.map ("    " ++ ·), fun call more => ?_⟩
  have hsome : (!(guard ++ call :: more).isEmpty) = true := by cases guard <;> rfl
  obtain ⟨tail, htail⟩ := exists_intercalate_cons [""]
    ((guard ++ call :: more).map ("    " ++ ·))
    (([code].filter (!·.isEmpty)).map (·.map ("    " ++ ·)))
  refine ⟨more.map ("    " ++ ·) ++ tail ++ ["    return ()", "end"], ?_⟩
  have hfilter : [guard ++ call :: more, code].filter (!·.isEmpty) =
      (guard ++ call :: more) :: [code].filter (!·.isEmpty) :=
    List.filter_cons_of_pos hsome
  rw [initializingRows, hfilter, List.map_cons, htail, List.map_append, List.map_cons]
  simp only [List.append_assoc, List.cons_append]

namespace Contract

variable {naming : Renaming}

/-- The calls follow a guard and what stands above it, the same for all calls. -/
theorem exists_rows_initializing (c : Contract) (naming : Renaming) :
    ∃ before, ∀ call more below, ∃ after,
      [""].intercalate
          ((c.initializing naming (call :: more)).map (Layout.rows ·.layout) ++ below) =
        before ++ ("    " ++ call) :: after := by
  have hinitializing := fun annotations name args => exists_initializingRows naming annotations name
    args c.onceGuard c.constructorCode
  unfold initializing
  -- behind a proxy the calls stand in the second function, else in the only one
  split
  · obtain ⟨before, hrows⟩ := hinitializing ["@external"] "initializer" c.constructorArgs
    refine ⟨initializingRows naming
      ["# @custom:oz-upgrades-unsafe-allow constructor", "@constructor"] "constructor" []
      [c.onceGuard] ++ [""] ++ before, fun call more below => ?_⟩
    obtain ⟨after, hrows⟩ := hrows call more
    obtain ⟨tail, htail⟩ := exists_intercalate_cons [""] (before ++ ("    " ++ call) :: after) below
    refine ⟨after ++ tail, ?_⟩
    simp only [List.map_cons, List.map_nil, Routine.rows_initializing, List.cons_append,
      List.nil_append, List.intercalate_cons_cons, htail, hrows, List.append_assoc]
  · obtain ⟨before, hrows⟩ := hinitializing ["@constructor"] "constructor" c.constructorArgs
    refine ⟨before, fun call more below => ?_⟩
    obtain ⟨after, hrows⟩ := hrows call more
    obtain ⟨tail, htail⟩ := exists_intercalate_cons [""] (before ++ ("    " ++ call) :: after) below
    refine ⟨after ++ tail, ?_⟩
    simp only [List.map_cons, List.map_nil, Routine.rows_initializing, List.cons_append,
      List.nil_append, htail, hrows, List.append_assoc]

end Contract

/-- **The source up to the first call** is the same for documents that are the same above what
initializes them, and are initialized alike but for the calls. -/
theorem Document.exists_render_eq (c : Contract) (naming : Renaming)
    (above : List (List Layout)) :
    ∃ before, ∀ d : Document, ∀ call more, d.above = above →
      d.constructors = c.initializing naming (call :: more) →
        ∃ after, d.render = textOfRows (before ++ ("    " ++ call) :: after) := by
  obtain ⟨before, hbefore⟩ := c.exists_rows_initializing naming
  refine ⟨((above.filter (!·.isEmpty)).map Layout.rows).flatMap (· ++ [""]) ++ before,
    fun d call more habove hconstructors => ?_⟩
  obtain ⟨after, hafter⟩ := hbefore call more (d.functionSections.map Layout.rows)
  have hsome : (c.initializing naming (call :: more)).map (Layout.rows ·.layout) ≠ [] := by
    unfold Contract.initializing
    split <;> exact List.cons_ne_nil _ _
  obtain ⟨first, rest, hrows⟩ := List.exists_cons_of_ne_nil hsome
  refine ⟨after, ?_⟩
  rw [render_eq_around_constructors, habove, hconstructors, List.append_assoc, hrows,
    List.cons_append, intercalate_append_cons, ← List.cons_append, ← hrows, hafter,
    List.append_assoc]
  rfl

/-! ## Texts of rows -/

theorem textOfRows_cons {rest : List String} (row : String) (h : rest ≠ []) :
    textOfRows (row :: rest) = row ++ ("\n" ++ textOfRows rest) := by
  rw [← List.singleton_append, textOfRows_append (List.cons_ne_nil row []) h,
    ← String.append_assoc]
  rfl

theorem exists_textOfRows_cons (row : String) (rest : List String) :
    ∃ tail, textOfRows (row :: rest) = row ++ tail := by
  cases rest with
  | nil => exact ⟨"\n", by simp [textOfRows]⟩
  | cons next rest => exact ⟨_, textOfRows_cons row (List.cons_ne_nil _ _)⟩

/-- Rows that two texts share come off both. -/
theorem textOfRows_append_inj {before : List String} {row row' : String}
    {after after' : List String}
    (h : textOfRows (before ++ row :: after) = textOfRows (before ++ row' :: after')) :
    textOfRows (row :: after) = textOfRows (row' :: after') := by
  induction before with
  | nil => exact h
  | cons first before ih =>
    have hne : ∀ row after, before ++ row :: after ≠ [] := by simp
    rw [List.cons_append, List.cons_append, textOfRows_cons _ (hne _ _),
      textOfRows_cons _ (hne _ _), String.append_right_inj, String.append_right_inj] at h
    exact ih h

/-! ## The call that initializes the token -/

namespace TokenOptions

/-- The row of the call that initializes the token. -/
def initializerRow (o : TokenOptions) : String :=
  "    ERC20_initializer('" ++ o.name ++ "', '" ++ o.symbol ++ "', " ++
    decimalText o.decimals.toNat ++ ", initial_supply, recipient)"

/-- The letters of the row and of what follows it, cut where name, symbol and decimals end. -/
theorem toList_initializerRow (o : TokenOptions) (tail : String) :
    (o.initializerRow ++ tail).toList =
      "    ERC20_initializer('".toList ++ (o.name.toList ++ '\'' ::
        (", '".toList ++ (o.symbol.toList ++ '\'' ::
          (", ".toList ++ ((decimalText o.decimals.toNat).toList ++ ',' ::
            (" initial_supply, recipient)".toList ++ tail.toList)))))) := by
  unfold initializerRow
  generalize decimalText o.decimals.toNat = decimals
  simp

theorem decimals_eq_of_decimalText_eq {o o' : TokenOptions}
    (h : decimalText o.decimals.toNat = decimalText o'.decimals.toNat) :
    o.decimals = o'.decimals := by
  have hdigits := congrArg (Nat.ofDigitChars 10 · 0) (congrArg String.toList h)
  simp only [toList_decimalText, Nat.ofDigitChars_ten_toDigits] at hdigits
  exact UInt8.toNat_inj.mp hdigits

/-- **The call tells name, symbol and decimals**, whatever follows: a quote ends the name and
another one the symbol, and a comma ends the decimals. -/
theorem initializerRow_inj {o o' : TokenOptions} (h : o.IsAcceptable) (h' : o'.IsAcceptable)
    {tail tail' : String} (heq : o.initializerRow ++ tail = o'.initializerRow ++ tail') :
    o.name = o'.name ∧ o.symbol = o'.symbol ∧ o.decimals = o'.decimals := by
  have hquote : ∀ {text : String}, IsShortString text → '\'' ∉ text.toList :=
    fun hshort hmem => (hshort.1 _ hmem).2 rfl
  have hcomma : ∀ n : Nat, ',' ∉ (decimalText n).toList := fun n hmem =>
    absurd (isDigit_of_mem_decimalText hmem) (by decide)
  have hletters := congrArg String.toList heq
  rw [toList_initializerRow, toList_initializerRow] at hletters
  obtain ⟨hname, hrest⟩ := eq_of_append_cons_eq (hquote h.name.2) (hquote h'.name.2)
    (List.append_cancel_left hletters)
  obtain ⟨hsymbol, hrest⟩ := eq_of_append_cons_eq (hquote h.symbol.2) (hquote h'.symbol.2)
    (List.append_cancel_left hrest)
  obtain ⟨hdecimals, -⟩ := eq_of_append_cons_eq (hcomma _) (hcomma _)
    (List.append_cancel_left hrest)
  exact ⟨String.toList_inj.mp hname, String.toList_inj.mp hsymbol,
    decimals_eq_of_decimalText_eq (String.toList_inj.mp hdecimals)⟩

/-- **The call that initializes the token comes first.** -/
theorem exists_initializerCalls_assembled {o : TokenOptions} (h : o.validate = .ok ()) :
    ∃ call more, o.assembled.initializerCalls = .ok (call :: more) ∧
      "    " ++ call = o.initializerRow := by
  have hclosed := (composed_assembled h).closed
  -- no mixin takes the place of the token, and what comes before it initializes itself
  have hbase : o.baseContract.parentRegistry.toList = [o.tokenParent] := by
    rw [baseContract, Contract.addTokenBase_eq]
    rfl
  obtain ⟨rest, hrest⟩ : ∃ rest, o.assembled.parentRegistry.toList = o.tokenParent :: rest := by
    rw [assembled, Mixin.parentRegistry_foldl (allAccepted_mixins h)]
    refine Registry.toList_foldl_put_cons hbase fun p hp => ?_
    obtain ⟨mixin, -, hp⟩ := List.mem_flatMap.mp hp
    have hother := List.any_eq_false.mp mixin.any_additions_token p hp
    change p.base.name ≠ "ERC20"
    simpa using hother
  have hfirst :
      (o.assembled.parents.filter (·.base.hasInitializer)).head? = some o.tokenParent := by
    have hnone : (o.assembled.parentRegistry.toList.filter
        (·.base.name == Contract.initializableName)).filter (·.base.hasInitializer) = [] := by
      refine List.filter_eq_nil_iff.mpr fun p hp => ?_
      obtain ⟨hp, hname⟩ := List.mem_filter.mp hp
      have hbase : p.base = .initializable :=
        BaseModule.eq_of_name_eq (hclosed.known p hp).1 (by decide) (beq_iff_eq.mp hname)
      rw [hbase]
      decide
    rw [Contract.parents, List.partition_eq_filter_filter, List.filter_append, hnone,
      List.nil_append, hrest]
    rfl
  obtain ⟨call, hcall, hrow⟩ := o.initializerCall_tokenParent
  obtain ⟨calls, hcalls, -⟩ := hclosed.initializerCalls
  obtain ⟨others, hcalled⟩ := List.head?_eq_some_iff.mp hfirst
  rw [Contract.initializerCalls, hcalled] at hcalls ⊢
  obtain ⟨first, more, hok, -, rfl⟩ := mapM_cons_eq_ok hcalls
  obtain rfl := Except.ok.inj (hcall.symm.trans hok)
  exact ⟨call, more, hcalls, hrow⟩

/-- The source of a token is that of the contract that it is built into. -/
theorem source_eq_source_assembled {o : TokenOptions} (h : o.validate = .ok ()) :
    (Request.token o).source = o.assembled.source {} := by
  rw [Request.source, Request.build, build_eq h]
  rfl

/-- **Tokens of one source that agree but for their texts agree in these, too.** -/
theorem texts_eq_of_source_eq {o o' : TokenOptions} (h : o.validate = .ok ())
    (h' : o'.validate = .ok ()) (hchoices : o.SameChoices o')
    (hinfo : o.shared.info = o'.shared.info)
    (hsource : (Request.token o).source = (Request.token o').source) :
    o.name = o'.name ∧ o.symbol = o'.symbol ∧ o.decimals = o'.decimals := by
  have hframe := (twins_assembled hchoices h h').sameFrame Corresponding.alike
  obtain ⟨d, hd, hrender⟩ := source_eq h
  obtain ⟨d', hd', hrender'⟩ := source_eq h'
  have hsame : d.render = d'.render :=
    Except.ok.inj (hrender.symm.trans (hsource.trans hrender'))
  -- the documents agree above what initializes them, and this is alike but for the calls
  have habove : d.above = d'.above := by
    have hlicense : o.printedLicense = o'.printedLicense := by
      rw [printedLicense, printedLicense, hinfo]
    obtain ⟨routines, -, rfl⟩ := Contract.document_eq_ok_iff.mp hd
    obtain ⟨routines', -, rfl⟩ := Contract.document_eq_ok_iff.mp hd'
    have htags : o.assembled.tags = o'.assembled.tags := by
      rw [assembled_eq h, assembled_eq h']
      change o.printedTags = o'.printedTags
      rw [printedTags, printedTags, hinfo]
    have hlicense : o.assembled.license = o'.assembled.license := by
      rw [assembled_eq h, assembled_eq h']
      exact hlicense
    simp only [Document.above, Document.front, hlicense, htags, hframe.importBlocks,
      hframe.declarations]
  obtain ⟨calls, hcalls, hconstructors⟩ := constructors_document h hd
  obtain ⟨calls', hcalls', hconstructors'⟩ := constructors_document h' hd'
  obtain ⟨call, more, hcalled, hrow⟩ := exists_initializerCalls_assembled h
  obtain ⟨call', more', hcalled', hrow'⟩ := exists_initializerCalls_assembled h'
  obtain rfl := Except.ok.inj (hcalls.symm.trans hcalled)
  obtain rfl := Except.ok.inj (hcalls'.symm.trans hcalled')
  rw [← hframe.initializing] at hconstructors'
  obtain ⟨before, hbefore⟩ := Document.exists_render_eq o.assembled {} d.above
  obtain ⟨after, hafter⟩ := hbefore d call more rfl hconstructors
  obtain ⟨after', hafter'⟩ := hbefore d' call' more' habove.symm hconstructors'
  -- so the calls that initialize the tokens stand in the same place
  rw [hafter, hafter', hrow, hrow'] at hsame
  have htexts := textOfRows_append_inj hsame
  obtain ⟨tail, htail⟩ := exists_textOfRows_cons o.initializerRow after
  obtain ⟨tail', htail'⟩ := exists_textOfRows_cons o'.initializerRow after'
  exact initializerRow_inj (validate_eq_ok_iff_isAcceptable.mp h)
    (validate_eq_ok_iff_isAcceptable.mp h') (htail.symm.trans (htexts.trans htail'))

/-- Nothing but choices, texts and metadata makes a token. -/
theorem SameChoices.eq_of_texts {o o' : TokenOptions} (h : o.SameChoices o')
    (hname : o.name = o'.name) (hsymbol : o.symbol = o'.symbol)
    (hdecimals : o.decimals = o'.decimals) (hinfo : o.shared.info = o'.shared.info) : o = o' := by
  obtain ⟨hburnable, hsnapshots, hpausable, hmintable, hpermit, hvotes, hflashmint, haccess,
    hupgradeable, -⟩ := h
  have hshared : o.shared = o'.shared := by
    calc o.shared = ⟨o.shared.access, o.shared.upgradeable, o.shared.info⟩ := rfl
      _ = o'.shared := by rw [haccess, hupgradeable, hinfo]
  calc
    o = ⟨o.name, o.symbol, o.decimals, o.burnable, o.snapshots, o.pausable, o.mintable, o.permit,
        o.votes, o.flashmint, o.shared⟩ := rfl
    _ = o' := by
      rw [hname, hsymbol, hdecimals, hburnable, hsnapshots, hpausable, hmintable, hpermit, hvotes,
        hflashmint, hshared]

/-! ## Access that nothing asks for -/

/-- The same token under another access mode. -/
def withAccess (o : TokenOptions) (access : AccessMode) : TokenOptions :=
  { o with shared := { o.shared with access } }

/-- Where nothing is guarded the access mode makes no difference. -/
theorem assembled_withAccess {o : TokenOptions} (h : o.isGuarded = false) (access : AccessMode) :
    (o.withAccess access).assembled = o.assembled := by
  simp only [isGuarded, Bool.or_eq_false_iff] at h
  obtain ⟨⟨⟨hsnapshots, hmintable⟩, hpausable⟩, hupgradeable⟩ := h
  simp only [assembled, withAccess, mixins, mixinsBeforeVotes, mixinsAfterVotes, hsnapshots,
    hmintable, hpausable, hupgradeable, List.foldl_append]
  rfl

/-- **The source identifies the token.** Two valid tokens with the same metadata and one source have
the same name, symbol, decimals and features, and the same access mode if one of them needs any. So
they are built into one contract, which also has the name that the source does not show. -/
theorem source_identifies {o o' : TokenOptions} (h : o.validate = .ok ())
    (h' : o'.validate = .ok ()) (hinfo : o.shared.info = o'.shared.info)
    (hsource : (Request.token o).source = (Request.token o').source) :
    o.name = o'.name ∧ o.symbol = o'.symbol ∧ o.decimals = o'.decimals ∧
      o.shared.upgradeable = o'.shared.upgradeable ∧
      o.burnable = o'.burnable ∧ o.snapshots = o'.snapshots ∧ o.pausable = o'.pausable ∧
      o.mintable = o'.mintable ∧ o.permit = o'.permit ∧ o.votes = o'.votes ∧
      o.flashmint = o'.flashmint ∧
      (o.snapshots = true ∨ o.mintable = true ∨ o.pausable = true ∨ o.shared.upgradeable = true →
        o.shared.access = o'.shared.access) ∧
      ∃ c c', o.build = .ok c ∧ o'.build = .ok c' ∧ c = c' ∧ (c == c') = true := by
  have hlicense : o.printedLicense = o'.printedLicense := by
    rw [printedLicense, printedLicense, hinfo]
  obtain ⟨hfeatures, haccess⟩ :=
    features_eq_of_needs h h' (needs_iff_of_source_eq h h' hlicense hsource)
  simp only [features, List.forall_mem_cons] at hfeatures
  obtain ⟨hburnable, hsnapshots, hpausable, hmintable, hpermit, hvotes, hflashmint, hupgradeable,
    -⟩ := hfeatures
  -- the second token with the access mode of the first one, which is the same contract
  have hsame : (o'.withAccess o.shared.access).assembled = o'.assembled := by
    cases hguarded : o.isGuarded with
    | true =>
      rw [haccess hguarded]
      rfl
    | false =>
      refine assembled_withAccess ?_ o.shared.access
      rw [isGuarded, ← hsnapshots, ← hmintable, ← hpausable, ← hupgradeable]
      exact hguarded
  have hvalid : (o'.withAccess o.shared.access).validate = .ok () := h'
  have hchoices : o.SameChoices (o'.withAccess o.shared.access) :=
    ⟨hburnable, hsnapshots, hpausable, hmintable, hpermit, hvotes, hflashmint, rfl, hupgradeable,
      congrArg (·.securityContact.isEmpty) hinfo⟩
  obtain ⟨hname, hsymbol, hdecimals⟩ := texts_eq_of_source_eq h hvalid hchoices hinfo (by
    rw [hsource, source_eq_source_assembled h', source_eq_source_assembled hvalid, hsame])
  have heq := hchoices.eq_of_texts hname hsymbol hdecimals hinfo
  have hassembled : o.assembled = o'.assembled := by rw [← hsame, ← heq]
  refine ⟨hname, hsymbol, hdecimals, hupgradeable, hburnable, hsnapshots, hpausable, hmintable,
    hpermit, hvotes, hflashmint, fun hguarded => haccess ?_, o.assembled, o'.assembled, build_eq h,
    build_eq h', hassembled, ?_⟩
  · simpa only [isGuarded, Bool.or_eq_true, or_assoc] using hguarded
  · rw [← hassembled]
    exact Contract.beq_self fun p hp =>
      ((composed_assembled h).closed.known p (Contract.mem_parents.mp hp)).2

/-- Two tokens whose name breaks into a second line, and which differ in an access mode that nothing
asks for. -/
theorem source_identifies_of_unguarded :
    let o : TokenOptions := { name := "Coin,\n(two, lines)", burnable := true, permit := true }
    let o' : TokenOptions := { o with shared := { access := .roles } }
    o.validate = .ok () ∧ o'.validate = .ok () ∧ o.shared.info = o'.shared.info ∧
      (Request.token o).source = (Request.token o').source ∧
      o.shared.access ≠ o'.shared.access ∧
      ∃ c c', o.build = .ok c ∧ o'.build = .ok c' ∧ c = c' ∧ (c == c') = true := by
  have h : ({ name := "Coin,\n(two, lines)", burnable := true, permit := true } :
      TokenOptions).validate = .ok () := rfl
  intro o o'
  have h' : o'.validate = .ok () := h
  have hsource : (Request.token o).source = (Request.token o').source := by
    rw [source_eq_source_assembled (o := o) h, source_eq_source_assembled h',
      ← assembled_withAccess (o := o) rfl .roles]
    rfl
  obtain ⟨-, -, -, -, -, -, -, -, -, -, -, -, hbuilt⟩ := source_identifies h h' rfl hsource
  exact ⟨h, h', rfl, hsource, by decide, hbuilt⟩

end TokenOptions

end CairoForge
