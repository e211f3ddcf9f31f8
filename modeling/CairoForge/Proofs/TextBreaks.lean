import CairoForge.Proofs.FreeText
import Mathlib.Data.List.Nodup

/-!
# Breaks in the free text of a token

A source has a line for each of its rows, and one more wherever a row breaks into a new line. Of the
rows of a token only those of free text do: a text that has a line feed moves all lines below it
down, once for each row that the text stands in. The lines of two sources correspond as long as the
same rows break equally often.

## Main definitions

* `TokenOptions.textBreaks` — how often the texts in each row of free text break into a new line.
* `Parent.callBreaks` — how often the call of an initializer breaks.

## Main results

* `TokenOptions.breaks_freeRows` — rows of free text break where their texts do.
* `TokenOptions.mem_parents_assembled` — the base modules of a token.
* `TokenOptions.breaksIn_initializerCalls` — how often the calls break that initialize a token.
* `TokenOptions.length_linesOf_rows` — by how much the numbers of lines of two sources differ.
* `TokenOptions.source_lines` — two sources compared line by line.
-/

namespace CairoForge

namespace TokenOptions

/-! ## Breaks in free text -/

/-- How often the texts in each row of free text break into a new line. -/
def textBreaks (o : TokenOptions) : List Nat :=
  [breaks o.shared.info.license, breaks o.shared.info.securityContact,
      breaks o.name + breaks o.symbol] ++
    (if o.permit then [breaks o.name] else [])

/-- Where no license is given the default stands, which does not break either. -/
theorem breaks_printedLicense (o : TokenOptions) :
    breaks o.printedLicense = breaks o.shared.info.license := by
  rw [printedLicense]
  split
  · next hempty =>
    rw [String.isEmpty_iff.mp hempty]
    decide
  · rfl

theorem breaks_tokenRow (o : TokenOptions) :
    breaks ("    ERC20_initializer('" ++ o.name ++ "', '" ++ o.symbol ++ "', " ++
      decimalText o.decimals.toNat ++ ", initial_supply, recipient)") =
      breaks o.name + breaks o.symbol := by
  have hfixed : ∀ fixed ∈ ["    ERC20_initializer('", "', '", "', ",
      ", initial_supply, recipient)"], breaks fixed = 0 := by decide
  simp only [List.forall_mem_cons] at hfixed
  simp only [breaks_append, breaks_decimalText, hfixed, Nat.zero_add, Nat.add_zero]

theorem breaks_permitRow (o : TokenOptions) :
    breaks ("    ERC20Permit_initializer('" ++ o.name ++ "')") = breaks o.name := by
  have hfixed : ∀ fixed ∈ ["    ERC20Permit_initializer('", "')"], breaks fixed = 0 := by decide
  simp only [List.forall_mem_cons] at hfixed
  simp only [breaks_append, hfixed, Nat.zero_add, Nat.add_zero]

/-- Free rows break where their texts do. -/
theorem breaks_freeRows (o : TokenOptions) : o.freeRows.map breaks = o.textBreaks := by
  have hlicense : breaks "# SPDX-License-Identifier: " = 0 := by decide
  have hcontact : breaks "# @custom:security-contact " = 0 := by decide
  rw [freeRows, List.map_append, apply_ite (List.map breaks)]
  simp only [List.map_cons, List.map_nil]
  rw [breaks_tokenRow, breaks_permitRow, breaks_append, breaks_append, breaks_printedLicense,
    hlicense, hcontact, Nat.zero_add, Nat.zero_add]
  rfl

/-- The same row of free text breaks equally often in both sources. -/
theorem breaks_eq_of_mem_zip {o o' : TokenOptions} (h : o.textBreaks = o'.textBreaks)
    {row row' : String} (hrow : (row, row') ∈ o.freeRows.zip o'.freeRows) :
    breaks row = breaks row' := by
  have hbreaks : o.freeRows.map breaks = o'.freeRows.map breaks := by
    rw [breaks_freeRows, breaks_freeRows, h]
  rw [← List.forall₂_eq_eq_eq, List.forall₂_map_left_iff, List.forall₂_map_right_iff] at hbreaks
  exact (List.forall₂_iff_zip.mp hbreaks).2 hrow

end TokenOptions

/-! ## Breaks in what initializes a contract -/

/-- How often the call of an initializer breaks into a new line. -/
def Parent.callBreaks (p : Parent) : Nat :=
  match p.initializerCall with
  | .ok call => breaks call
  | .error _ => 0

/-- A call breaks where its row does. -/
theorem Parent.callBreaks_eq {p : Parent} {call row : String} (hcall : p.initializerCall = .ok call)
    (hrow : Layout.indentation 1 ++ call = row) : p.callBreaks = breaks row := by
  rw [callBreaks, hcall, ← hrow, breaks_indentation]

/-- The calls of a contract break as often as those of its base modules. -/
theorem Contract.breaksIn_initializerCalls {c : Contract} {calls : List String}
    (h : c.initializerCalls = .ok calls) :
    breaksIn calls =
      ((c.parents.filter (·.base.hasInitializer)).map Parent.callBreaks).sum := by
  refine congrArg List.sum (map_congr_forall₂ ?_).symm
  refine (mapM_eq_ok_iff_forall₂.mp h).imp fun p call hcall => ?_
  rw [Parent.callBreaks, hcall]

/-- A routine that initializes a contract breaks in its statements, and elsewhere whatever they
are. -/
theorem Routine.breaksIn_rows_initializing (naming : Renaming) (annotations : List String)
    (name : String) (args : List Argument) (statements : List (List String)) :
    breaksIn (Layout.rows (initializing naming annotations name args statements).layout) =
      breaksIn (Layout.rows (initializing naming annotations name args []).layout) +
        (statements.map breaksIn).sum := by
  rw [breaksIn_rows, breaksIn_rows]
  change breaksIn (initializing naming annotations name args []).opening + _ +
    breaks (initializing naming annotations name args []).returnStatement = _
  simp only [initializing, List.map_nil, List.sum_nil]
  omega

/-- **What initializes a contract** breaks in its calls, and elsewhere whatever they are. -/
theorem Contract.breaksIn_initializing (c : Contract) (naming : Renaming) (calls : List String) :
    ((c.initializing naming calls).map fun r => breaksIn (Layout.rows r.layout)).sum =
      ((c.initializing naming []).map fun r => breaksIn (Layout.rows r.layout)).sum +
        breaksIn calls := by
  have hroutine : ∀ annotations name args, breaksIn (Layout.rows
      (Routine.initializing naming annotations name args
        [c.onceGuard ++ calls, c.constructorCode]).layout) =
      breaksIn (Layout.rows (Routine.initializing naming annotations name args
        [c.onceGuard ++ [], c.constructorCode]).layout) + breaksIn calls := by
    intro annotations name args
    rw [Routine.breaksIn_rows_initializing, Routine.breaksIn_rows_initializing naming _ _ _
      [c.onceGuard ++ [], _]]
    simp only [List.map_cons, List.map_nil, List.sum_cons, List.sum_nil, breaksIn_append,
      breaksIn_nil]
    omega
  unfold initializing
  split
  · -- the constructor behind a proxy calls no initializer
    simp only [List.map_cons, List.map_nil, List.sum_cons, List.sum_nil, hroutine, Nat.add_zero,
      Nat.add_assoc]
  · simp only [List.map_cons, List.map_nil, List.sum_cons, List.sum_nil, hroutine, Nat.add_zero]

/-- What two names stand for, summed up over a list of names. -/
theorem sum_map_two_names {first second : String} (hne : first ≠ second) (a b : Nat)
    (names : List String) :
    (names.map fun name => if name = first then a else if name = second then b else 0).sum =
      names.count first * a + names.count second * b := by
  induction names with
  | nil => simp
  | cons name rest ih =>
    rw [List.map_cons, List.sum_cons, ih, List.count_cons, List.count_cons]
    by_cases hfirst : name = first
    · subst hfirst
      simp only [if_true, beq_self_eq_true, beq_eq_false_iff_ne.mpr hne, Bool.false_eq_true,
        if_false, Nat.add_mul, Nat.one_mul, Nat.add_zero]
      omega
    · by_cases hsecond : name = second
      · subst hsecond
        simp only [beq_iff_eq, hfirst, if_true, if_false, Nat.add_mul, Nat.one_mul, Nat.add_zero]
        omega
      · simp [hfirst, hsecond]

/-- The base modules that are initialized without free text. -/
def fixedParents : List Parent :=
  [⟨.erc20Burnable, []⟩, ⟨.erc20Snapshot, []⟩, ⟨.erc20Votes, []⟩, ⟨.erc20FlashMint, []⟩,
    ⟨.pausable, []⟩, ⟨.initializable, []⟩, ⟨.proxy, [.literal "owner"]⟩,
    AccessMode.ownable.parent, AccessMode.roles.parent]

theorem callBreaks_fixedParents {p : Parent} (h : p ∈ fixedParents) :
    p.base.name ∉ ["ERC20", "ERC20Permit"] ∧ p.callBreaks = 0 := by
  have hall : ∀ p ∈ fixedParents, p.base.name ∉ ["ERC20", "ERC20Permit"] ∧ p.callBreaks = 0 := by
    decide +kernel
  exact hall p h

/-- Only the mixin for permits adds a module that is initialized with free text. -/
theorem Mixin.additions_subset_fixedParents {mixin : Mixin} (h : ∀ name, mixin ≠ .permit name) :
    mixin.additions ⊆ fixedParents := by
  cases mixin with
  | permit name => exact absurd rfl (h name)
  | snapshots mode | minting mode | pausing mode =>
    cases mode <;> simp [additions, fixedParents]
  | upgrading upgradeable mode =>
    cases upgradeable <;> cases mode <;> simp [additions, fixedParents]
  | burning | votes | flashMint | metadata => simp [additions, fixedParents]

namespace TokenOptions

section

variable {o : TokenOptions} (h : o.validate = .ok ())
include h

/-- **The base modules of a token**: the one that makes it a token, the one for permits if it has
them, and others that are initialized without free text. -/
theorem mem_parents_assembled {p : Parent} (hp : p ∈ o.assembled.parents) :
    p = o.tokenParent ∨ (o.permit = true ∧ p = o.permitParent) ∨ p ∈ fixedParents := by
  have hbase : o.baseContract.parentRegistry.toList = [o.tokenParent] := by
    rw [baseContract, Contract.addTokenBase_eq]
    rfl
  rw [Contract.mem_parents, assembled, Mixin.parentRegistry_foldl (allAccepted_mixins h)] at hp
  rcases Registry.mem_of_mem_foldl_put hp with htoken | hadded
  · rw [hbase] at htoken
    exact .inl (List.mem_singleton.mp htoken)
  · obtain ⟨mixin, hmixin, hadded⟩ := List.mem_flatMap.mp hadded
    by_cases hpermit : ∃ name, mixin = .permit name
    · obtain ⟨name, rfl⟩ := hpermit
      obtain ⟨hasked, rfl⟩ : o.permit = true ∧ name = o.name := by
        simpa [mixins, mixinsBeforeVotes, mixinsAfterVotes] using hmixin
      exact .inr (.inl ⟨hasked, List.mem_singleton.mp hadded⟩)
    · exact .inr (.inr (Mixin.additions_subset_fixedParents (not_exists.mp hpermit) hadded))

/-- The names of the modules whose initializers a token calls are distinct, and those of the token
and of its permits are among them. -/
theorem count_initialized_names :
    let names := (o.assembled.parents.filter (·.base.hasInitializer)).map (·.base.name)
    names.count "ERC20" = 1 ∧ names.count "ERC20Permit" = if o.permit then 1 else 0 := by
  intro names
  have hclosed := (composed_assembled h).closed
  have hnodup : names.Nodup := by
    have hall : (o.assembled.parents.map (·.base.name)).Nodup :=
      (o.assembled.parents_perm.map _).nodup_iff.mpr o.assembled.parentRegistry.nodup_keys
    exact hall.sublist (List.filter_sublist.map _)
  have hmem : ∀ base ∈ BaseModule.library, base.hasInitializer = true →
      o.assembled.hasParent base.name = true → base.name ∈ names := by
    intro base hlibrary hinitializer hparent
    obtain ⟨p, hp, rfl⟩ := hclosed.exists_parent hlibrary hparent
    exact List.mem_map.mpr ⟨p, List.mem_filter.mpr ⟨hp, hinitializer⟩, rfl⟩
  refine ⟨List.count_eq_one_of_mem hnodup
    (hmem .erc20 (by decide) rfl hclosed.hasParent_token), ?_⟩
  split
  · next hpermit =>
    refine List.count_eq_one_of_mem hnodup (hmem .erc20Permit (by decide) rfl ?_)
    have hadded : Mixin.permit o.name ∈ o.mixins := by simp [mixins, mixinsBeforeVotes, hpermit]
    exact Mixin.hasParent_foldl (p := o.permitParent) (allAccepted_mixins h) hadded
      (List.mem_singleton_self _)
  · next hpermit =>
    refine List.count_eq_zero.mpr fun hname => ?_
    obtain ⟨p, hp, hname⟩ := List.mem_map.mp hname
    rcases mem_parents_assembled h (List.mem_filter.mp hp).1 with rfl | ⟨hasked, -⟩ | hfixed
    · exact absurd (show "ERC20" = "ERC20Permit" from hname) (by decide)
    · exact hpermit hasked
    · exact (callBreaks_fixedParents hfixed).1 (by simp [hname])

/-- How often a call breaks that initializes a token depends on the name of the module alone. -/
theorem callBreaks_eq {p : Parent} (hp : p ∈ o.assembled.parents) :
    p.callBreaks =
      if p.base.name = "ERC20" then breaks o.name + breaks o.symbol
      else if p.base.name = "ERC20Permit" then breaks o.name else 0 := by
  rcases mem_parents_assembled h hp with rfl | ⟨-, rfl⟩ | hfixed
  · obtain ⟨call, hcall, hrow⟩ := o.initializerCall_tokenParent
    exact (Parent.callBreaks_eq hcall hrow).trans o.breaks_tokenRow
  · obtain ⟨call, hcall, hrow⟩ := o.initializerCall_permitParent
    exact (Parent.callBreaks_eq hcall hrow).trans o.breaks_permitRow
  · obtain ⟨hname, hbreaks⟩ := callBreaks_fixedParents hfixed
    simp only [List.mem_cons, List.not_mem_nil, or_false, not_or] at hname
    rw [hbreaks, if_neg hname.1, if_neg hname.2]

/-- **The calls that initialize a token** break where the name and the symbol do, and where the name
does once more if there are permits. -/
theorem breaksIn_initializerCalls {calls : List String}
    (hcalls : o.assembled.initializerCalls = .ok calls) :
    breaksIn calls =
      breaks o.name + breaks o.symbol + if o.permit then breaks o.name else 0 := by
  obtain ⟨htoken, hpermit⟩ := count_initialized_names h
  calc breaksIn calls
      = ((o.assembled.parents.filter (·.base.hasInitializer)).map Parent.callBreaks).sum :=
        Contract.breaksIn_initializerCalls hcalls
    _ = (((o.assembled.parents.filter (·.base.hasInitializer)).map (·.base.name)).map fun name =>
          if name = "ERC20" then breaks o.name + breaks o.symbol
          else if name = "ERC20Permit" then breaks o.name else 0).sum := by
        rw [List.map_map]
        exact congrArg List.sum (List.map_congr_left fun p hp =>
          callBreaks_eq h (List.mem_filter.mp hp).1)
    _ = _ := by
        rw [sum_map_two_names (by decide), htoken, hpermit]
        split <;> simp

/-- **The free parts of a token's document** break in the texts of the token, and elsewhere where
what initializes it does without calls. -/
theorem freeBreaks_document {d : Document} (hd : o.assembled.document {} = .ok d) :
    d.freeBreaks =
      ((o.assembled.initializing {} []).map fun r => breaksIn (Layout.rows r.layout)).sum +
        o.textBreaks.sum := by
  obtain ⟨hlicense, htags⟩ := heading_document h hd
  obtain ⟨calls, hcalls, hconstructors⟩ := constructors_document h hd
  have hcontact : breaksIn (o.printedTags.map Document.tagLine) =
      breaks o.shared.info.securityContact := by
    have hkey : breaks ("# " ++ Metadata.contactKey ++ " ") = 0 := by decide
    rw [printedTags]
    split
    · next hempty =>
      rw [String.isEmpty_iff.mp hempty]
      decide
    · rw [List.map_singleton, breaksIn_cons, breaksIn_nil, Nat.add_zero, Document.tagLine,
        breaks_append, hkey, Nat.zero_add]
  rw [Document.freeBreaks, hlicense, htags, hconstructors, breaks_printedLicense, hcontact,
    Contract.breaksIn_initializing, breaksIn_initializerCalls h hcalls, textBreaks]
  split
  · simp only [List.cons_append, List.nil_append, List.sum_cons, List.sum_nil]
    omega
  · simp only [List.append_nil, List.sum_cons, List.sum_nil]
    omega

end

/-! ## Sources compared line by line -/

section

variable {o o' : TokenOptions} (h : o.validate = .ok ()) (h' : o'.validate = .ok ())
  (hchoices : o.SameChoices o') {d d' : Document} (hd : o.assembled.document {} = .ok d)
  (hd' : o'.assembled.document {} = .ok d')
include h h' hchoices hd hd'

theorem forall₂_rows : List.Forall₂ (o.SameRow o') d.rows d'.rows :=
  (related_documents h h' hchoices hd hd').forall₂_rows fun _ => .inl rfl

/-- **Every break in a text is one more line**, once for each row that the text stands in. -/
theorem length_linesOf_rows :
    (linesOf (textOfRows d.rows)).length + o'.textBreaks.sum =
      (linesOf (textOfRows d'.rows)).length + o.textBreaks.sum := by
  have hlength := (forall₂_rows h h' hchoices hd hd').length_eq
  have hbreaks := (related_documents h h' hchoices hd hd').breaksIn_rows
  -- both are initialized alike, so what initializes them breaks alike but for the calls
  have hframe := (twins_assembled hchoices h h').sameFrame Corresponding.alike
  rw [freeBreaks_document h hd, freeBreaks_document h' hd', hframe.initializing] at hbreaks
  rw [length_linesOf_textOfRows d.rows_ne_nil, length_linesOf_textOfRows d'.rows_ne_nil]
  omega

end

/-- **Free text stays in its rows.** The sources of two valid tokens of the same choices are texts
of rows that agree one by one, but for the license, the security contact, and the calls that
initialize the token and its permits. The numbers of their lines differ by as much as the breaks in
these rows. If the same rows break into new lines equally often, in particular if no text has a
break, there are equally many lines, and these agree one by one but for the lines of the rows
mentioned. -/
theorem source_lines {o o' : TokenOptions} (h : o.validate = .ok ()) (h' : o'.validate = .ok ())
    (hchoices : o.SameChoices o') :
    ∃ rows rows',
      (Request.token o).source = .ok (textOfRows rows) ∧
      (Request.token o').source = .ok (textOfRows rows') ∧
      List.Forall₂ (fun row row' => row = row' ∨ (row, row') ∈ o.freeRows.zip o'.freeRows)
        rows rows' ∧
      (linesOf (textOfRows rows)).length + o'.textBreaks.sum =
        (linesOf (textOfRows rows')).length + o.textBreaks.sum ∧
      (o.textBreaks = o'.textBreaks →
        (linesOf (textOfRows rows)).length = (linesOf (textOfRows rows')).length ∧
        List.Forall₂
          (fun line line' => line = line' ∨ ∃ row row',
            (row, row') ∈ o.freeRows.zip o'.freeRows ∧ line ∈ linesOf row ∧ line' ∈ linesOf row')
          (linesOf (textOfRows rows)) (linesOf (textOfRows rows'))) := by
  obtain ⟨d, hd, hsource⟩ := source_eq h
  obtain ⟨d', hd', hsource'⟩ := source_eq h'
  have hrows := forall₂_rows h h' hchoices hd hd'
  refine ⟨d.rows, d'.rows, hsource, hsource', hrows, length_linesOf_rows h h' hchoices hd hd',
    fun hbreaks => ?_⟩
  have hlines := forall₂_linesOf d.rows_ne_nil hrows fun row row' hrow =>
    breaks_eq_of_mem_zip hbreaks hrow
  exact ⟨hlines.length_eq, hlines⟩

/-- Two tokens with permits that share nothing but their choices. -/
theorem source_lines_of_plain_texts :
    let o : TokenOptions := { permit := true }
    let o' : TokenOptions :=
      { name := "Forge Coin", symbol := "FC", decimals := 6, permit := true,
        shared := { info := { license := "Apache-2.0" } } }
    ∃ rows rows',
      (Request.token o).source = .ok (textOfRows rows) ∧
      (Request.token o').source = .ok (textOfRows rows') ∧
      (linesOf (textOfRows rows)).length = (linesOf (textOfRows rows')).length := by
  have h : ({ permit := true } : TokenOptions).validate = .ok () := rfl
  have h' : ({ name := "Forge Coin", symbol := "FC", permit := true } : TokenOptions).validate =
    .ok () := rfl
  intro o o'
  have hchoices : o.SameChoices o' := ⟨rfl, rfl, rfl, rfl, rfl, rfl, rfl, rfl, rfl, rfl⟩
  obtain ⟨rows, rows', hsource, hsource', -, -, hlines⟩ :=
    @source_lines o o' h h' hchoices
  have hbreaks : o.textBreaks = o'.textBreaks := by decide
  exact ⟨rows, rows', hsource, hsource', (hlines hbreaks).1⟩

/-- A line feed is among the characters that a symbol may have, and ends the row in which the token
is initialized before the symbol does. -/
theorem lines_differ_of_broken_symbol :
    let o : TokenOptions := {}
    let o' : TokenOptions := { symbol := "MTK\n" }
    o.validate = .ok () ∧ o'.validate = .ok () ∧ o.SameChoices o' ∧
      ∃ text text', (Request.token o).source = .ok text ∧
        (Request.token o').source = .ok text' ∧
        (linesOf text').length = (linesOf text).length + 1 := by
  have h : ({} : TokenOptions).validate = .ok () := rfl
  have h' : ({ symbol := "MTK\n" } : TokenOptions).validate = .ok () := rfl
  have hchoices : SameChoices {} { symbol := "MTK\n" } :=
    ⟨rfl, rfl, rfl, rfl, rfl, rfl, rfl, rfl, rfl, rfl⟩
  obtain ⟨d, hd, hsource⟩ := source_eq h
  obtain ⟨d', hd', hsource'⟩ := source_eq h'
  have hlength := length_linesOf_rows h h' hchoices hd hd'
  have hplain : (textBreaks {}).sum = 0 := by decide
  have hbroken : (textBreaks { symbol := "MTK\n" }).sum = 1 := by decide
  refine ⟨h, h', hchoices, _, _, hsource, hsource', ?_⟩
  omega

end TokenOptions

end CairoForge