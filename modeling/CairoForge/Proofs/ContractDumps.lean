import CairoForge.Contract.Json
import CairoForge.Proofs.DistinctJson
import CairoForge.Proofs.EqualContracts
import Mathlib.Logic.Function.Basic

/-!
# Dumps of contracts

A contract is dumped as JSON part by part, as it is presented. What can be told apart in a part can
be told apart in its JSON, though a value carries no tag, a type may be left out and a body without
code has no lines; so a dump determines the contract as far as contracts are compared. Numbers are
the exception: NaN equals nothing, infinities are dumped like NaN, and the two zeros are equal but
have two texts.

## Main definitions

* `Binary64.IsDumpable`, `Contract.IsDumpable` — numbers that are finite and no negative zero.
* `Contract.SameParts` — contracts with the same parts, as they are presented.

## Main results

* `Value.json_injective`, `ContractFunction.json_injective`, … — parts are told apart by their JSON.
* `Contract.SameParts.source`, `Contract.SameParts.beq_iff` — contracts with the same parts have one
  source, and are equal unless NaN is among their numbers.
* `Contract.beq_iff_sameParts` — contracts are equal when their parts are.
* `Contract.json_eq_iff_sameParts` — the JSON of a contract determines its parts.
* `Contract.beq_iff_dump_eq` — equal contracts are those of one dump.
-/

namespace CairoForge

/-! ## Parts -/

theorem Json.texts_injective : Function.Injective Json.texts := fun _ _ h =>
  List.map_injective_iff.mpr (fun _ _ => Json.text.inj) (Json.array.inj h)

/-- A value that may be missing, where null stands for nothing else. -/
theorem Json.orNull_injective {α : Type} {f : α → Json} (hf : Function.Injective f)
    (hnull : ∀ a, f a ≠ .null) : Function.Injective (Json.orNull f) := by
  intro a b h
  cases a <;> cases b
  · rfl
  · exact absurd h.symm (hnull _)
  · exact absurd h (hnull _)
  · exact congrArg some (hf h)

/-- An array of parts that are told apart. -/
theorem Json.array_map_injective {α : Type} {f : α → Json} (hf : Function.Injective f) :
    Function.Injective fun as => Json.array (List.map f as) := fun _ _ h =>
  List.map_injective_iff.mpr hf (Json.array.inj h)

/-- Values carry no tag, but a literal and a note are objects of different members. -/
theorem Value.json_injective : Function.Injective Value.json := by
  intro v w h
  induction v generalizing w with
  | text content =>
    cases w with
    | text content' => exact congrArg text (Json.text.inj h)
    | _ => cases h
  | number n =>
    cases w with
    | number n' => exact congrArg number (Json.number.inj h)
    | _ => cases h
  | literal source =>
    cases w with
    | literal source' =>
      simp only [json, Json.object.injEq, List.cons.injEq, Prod.mk.injEq, Json.text.injEq,
        true_and, and_true] at h
      exact congrArg literal h
    -- one member against two
    | note remark value => simp [json] at h
    | _ => cases h
  | note remark value ih =>
    cases w with
    | note remark' value' =>
      simp only [json, Json.object.injEq, List.cons.injEq, Prod.mk.injEq, Json.text.injEq,
        true_and, and_true] at h
      obtain ⟨rfl, hvalue⟩ := h
      exact congrArg _ (ih hvalue)
    | literal source => simp [json] at h
    | _ => cases h

theorem BaseModule.json_injective : Function.Injective BaseModule.json := by
  rintro ⟨name, path, initializer, symbols⟩ ⟨name', path', initializer', symbols'⟩ h
  simp only [json, Json.object.injEq, List.cons.injEq, Prod.mk.injEq, Json.text.injEq, true_and,
    and_true] at h
  obtain ⟨rfl, rfl, hinitializer, hsymbols⟩ := h
  obtain rfl := Json.texts_injective hsymbols
  cases initializer <;> cases initializer' <;> simp_all [hasInitializer]

theorem Parent.json_injective : Function.Injective Parent.json := by
  rintro ⟨base, params⟩ ⟨base', params'⟩ h
  simp only [json, Json.object.injEq, List.cons.injEq, Prod.mk.injEq, true_and, and_true] at h
  rw [BaseModule.json_injective h.1, Json.array_map_injective Value.json_injective h.2]

theorem Attachment.json_injective : Function.Injective Attachment.json := by
  rintro ⟨library, target⟩ ⟨library', target'⟩ h
  simp only [json, Json.object.injEq, List.cons.injEq, Prod.mk.injEq, Json.text.injEq, true_and,
    and_true] at h
  rw [BaseModule.json_injective h.1, h.2]

theorem Tag.json_injective : Function.Injective Tag.json := by
  rintro ⟨key, value⟩ ⟨key', value'⟩ h
  simp only [json, Json.object.injEq, List.cons.injEq, Prod.mk.injEq, Json.text.injEq, true_and,
    and_true] at h
  rw [h.1, h.2]

/-- An argument without a type is not one of the empty type. -/
theorem Argument.json_injective : Function.Injective Argument.json := by
  rintro ⟨name, type?⟩ ⟨name', type?'⟩ h
  cases type? <;> cases type?' <;> simp_all [json]

theorem Argument.listJson_injective : Function.Injective Argument.listJson :=
  Json.array_map_injective json_injective

/-- The state of a body is written out, so two bodies without lines are told apart. -/
theorem FunctionBody.json_injective : Function.Injective FunctionBody.json := by
  intro body body' h
  cases body <;> cases body' <;> simp [json, stateName, code] at h ⊢
  · exact Json.texts_injective h
  · exact Json.texts_injective h

theorem FunctionKind.name_injective : Function.Injective FunctionKind.name := by
  intro kind kind' h
  cases kind <;> cases kind' <;> first | rfl | exact absurd h (by decide)

/-- No returns are not an empty list of them. -/
theorem ContractFunction.json_injective : Function.Injective ContractFunction.json := by
  rintro ⟨⟨base?, name, implicitArgs, args, returns?, returnValue?, kind?⟩, modifiers, body⟩
    ⟨⟨base?', name', implicitArgs', args', returns?', returnValue?', kind?'⟩, modifiers', body'⟩ h
  simp only [json, Json.object.injEq, List.cons.injEq, Prod.mk.injEq, Json.text.injEq, true_and,
    and_true] at h
  obtain ⟨hbase, rfl, himplicit, hargs, hreturns, hvalue, hkind, hmodifiers, hbody⟩ := h
  have htext : Function.Injective (Json.orNull .text) :=
    Json.orNull_injective (fun _ _ => Json.text.inj) (fun _ => nofun)
  have hlist : Function.Injective (Json.orNull Argument.listJson) :=
    Json.orNull_injective Argument.listJson_injective (fun _ => nofun)
  have hname : Function.Injective (Json.orNull fun kind : FunctionKind => .text kind.name) :=
    Json.orNull_injective (fun _ _ h => FunctionKind.name_injective (Json.text.inj h))
      (fun _ => nofun)
  rw [htext hbase, Argument.listJson_injective himplicit, Argument.listJson_injective hargs,
    hlist hreturns, htext hvalue, hname hkind, Json.texts_injective hmodifiers,
    FunctionBody.json_injective hbody]

/-! ## Numbers -/

/-- **Numbers that a dump tells apart**: finite ones that are not the negative zero. -/
structure Binary64.IsDumpable (x : Binary64) : Prop where
  finite : x.IsFinite
  notNegativeZero : ∀ q, x.datum ≠ .finite true 0 q

theorem Binary64.IsFinite.datum_ne_nan {x : Binary64} (h : x.IsFinite) : x.datum ≠ .nan := by
  obtain ⟨negative, m, q, hx⟩ := h
  rw [hx]
  exact nofun

/-- Numbers that a dump tells apart are equal when they are one word. -/
theorem Binary64.IsDumpable.eq_of_same {x y : Binary64} (hx : x.IsDumpable) (hy : y.IsDumpable)
    (h : x.same y = true) : x = y := by
  rcases eq_or_isZero_of_same h with hxy | ⟨hzero, hzero'⟩
  · exact hxy
  · -- each of the two zeros is the positive one
    have hpositive : ∀ {z : Binary64}, z.IsDumpable → z.isZero = true →
        z.datum = .finite false 0 (-1074) := by
      intro z hz hzero
      unfold isZero at hzero
      split at hzero
      · next negative q hdatum =>
        rw [hdatum, q_of_datum_zero hdatum]
        cases negative with
        | false => rfl
        | true => exact absurd hdatum (hz.notNegativeZero q)
      · cases hzero
    exact eq_of_datum_eq (hpositive hx hzero) (hpositive hy hzero')

/-- A value whose number, if it is one, is told apart by a dump. -/
def Value.IsDumpable (v : Value) : Prop :=
  ∀ n, v.innermost = .number n → n.IsDumpable

theorem Value.eq_of_beq {v w : Value} (hv : v.IsDumpable) (hw : w.IsDumpable)
    (h : (v == w) = true) : v = w := by
  induction v generalizing w with
  | text content =>
    cases w <;> simp only [BEq.beq, instBEqValue.beq, Bool.false_eq_true] at h
    rw [of_decide_eq_true h]
  | number n =>
    cases w <;> simp only [BEq.beq, instBEqValue.beq, Bool.false_eq_true] at h
    exact congrArg number ((hv _ rfl).eq_of_same (hw _ rfl) h)
  | literal source =>
    cases w <;> simp only [BEq.beq, instBEqValue.beq, Bool.false_eq_true] at h
    rw [of_decide_eq_true h]
  | note remark value ih =>
    cases w <;> simp only [BEq.beq, instBEqValue.beq, Bool.false_eq_true, Bool.and_eq_true] at h
    next remark' value' =>
    rw [of_decide_eq_true h.1, ih (w := value') hv hw h.2]

/-- A contract whose numbers are told apart by its dump. -/
def Contract.IsDumpable (c : Contract) : Prop :=
  ∀ p ∈ c.parents, ∀ v ∈ p.params, v.IsDumpable

/-! ## Finite numbers in JSON -/

theorem Json.finiteItems_map {α : Type} {f : α → Json} {as : List α}
    (h : ∀ a ∈ as, (f a).Finite) : FiniteItems (as.map f) := by
  induction as with
  | nil => trivial
  | cons a as ih =>
    obtain ⟨ha, hrest⟩ := List.forall_mem_cons.mp h
    exact ⟨ha, ih hrest⟩

theorem Json.finite_texts (items : List String) : (Json.texts items).Finite :=
  finiteItems_map fun _ _ => trivial

theorem Json.finite_orNull {α : Type} {f : α → Json} (hf : ∀ a, (f a).Finite) (a? : Option α) :
    (Json.orNull f a?).Finite := by
  cases a? with
  | none => trivial
  | some a => exact hf a

theorem Value.finite_json {v : Value} (hv : v.IsDumpable) : v.json.Finite := by
  induction v with
  | number n => exact (hv n rfl).finite
  | note remark value ih => exact ⟨trivial, ih hv, trivial⟩
  | text content => trivial
  | literal source => exact ⟨trivial, trivial⟩

theorem BaseModule.finite_json (base : BaseModule) : base.json.Finite :=
  ⟨trivial, trivial, trivial, Json.finite_texts _, trivial⟩

theorem Parent.finite_json {p : Parent} (hp : ∀ v ∈ p.params, v.IsDumpable) : p.json.Finite :=
  ⟨p.base.finite_json, Json.finiteItems_map fun v hv => Value.finite_json (hp v hv), trivial⟩

theorem Attachment.finite_json (a : Attachment) : a.json.Finite :=
  ⟨a.library.finite_json, trivial, trivial⟩

theorem Argument.finite_listJson (args : List Argument) : (Argument.listJson args).Finite := by
  refine Json.finiteItems_map fun arg _ => ?_
  obtain ⟨name, type?⟩ := arg
  cases type? with
  | none => exact ⟨trivial, trivial⟩
  | some type => exact ⟨trivial, trivial, trivial⟩

theorem FunctionBody.finite_json (body : FunctionBody) : body.json.Finite := by
  cases body with
  | empty => exact ⟨trivial, trivial⟩
  | accumulating code => exact ⟨trivial, Json.finite_texts _, trivial⟩
  | finalized code => exact ⟨trivial, Json.finite_texts _, trivial⟩

theorem ContractFunction.finite_json (function : ContractFunction) : function.json.Finite :=
  have htext := Json.finite_orNull (f := .text) fun _ => trivial
  have hkind := Json.finite_orNull (f := fun kind : FunctionKind => .text kind.name)
    fun _ => trivial
  ⟨htext _, trivial, Argument.finite_listJson _, Argument.finite_listJson _,
    Json.finite_orNull Argument.finite_listJson _, htext _, hkind _, Json.finite_texts _,
    function.body.finite_json, trivial⟩

theorem Contract.finite_json {c : Contract} (hc : c.IsDumpable) : c.json.Finite :=
  ⟨trivial, trivial, trivial, Json.finiteItems_map fun p hp => Parent.finite_json (hc p hp),
    Json.finiteItems_map fun a _ => a.finite_json, Json.finite_texts _,
    Json.finiteItems_map fun _ _ => ⟨trivial, trivial, trivial⟩,
    Json.finiteItems_map fun function _ => function.finite_json, Argument.finite_listJson _,
    Argument.finite_listJson _, Json.finite_texts _, Json.finite_texts _, trivial⟩

/-! ## Contracts -/

/-- Base modules are equal when they are the same, with the same arguments. -/
theorem Parent.eq_of_beq {p q : Parent} (hp : ∀ v ∈ p.params, v.IsDumpable)
    (hq : ∀ v ∈ q.params, v.IsDumpable) (h : (p == q) = true) : p = q := by
  obtain ⟨hbase, hparams⟩ := eq_and_forall₂_of_beq h
  obtain ⟨base, params⟩ := p
  obtain ⟨base', params'⟩ := q
  obtain rfl : base = base' := hbase
  exact congrArg (mk base)
    (eq_of_forall₂ hparams fun v hv w hw => Value.eq_of_beq (hp v hv) (hq w hw))

namespace Contract

variable {a b : Contract}

/-- **Contracts with the same parts**, as they are presented. -/
structure SameParts (a b : Contract) : Prop where
  name : a.name = b.name
  license : a.license = b.license
  upgradeable : a.upgradeable = b.upgradeable
  parents : a.parents = b.parents
  attachments : a.attachments = b.attachments
  tags : a.tags = b.tags
  functions : a.functions = b.functions
  constructorArgs : a.constructorArgs = b.constructorArgs
  constructorCode : a.constructorCode = b.constructorCode
  declarations : a.declarations = b.declarations

namespace SameParts

theorem imports (h : a.SameParts b) : a.imports = b.imports := by
  rw [Contract.imports, Contract.imports, h.parents, h.attachments]

/-- Nothing is printed but the parts of a contract. -/
theorem source (h : a.SameParts b) (naming : Renaming) : a.source naming = b.source naming := by
  have hframe : a.SameFrame b := {
    upgradeable := h.upgradeable
    attachments := h.attachments
    constructorArgs := h.constructorArgs
    constructorCode := h.constructorCode
    functions := h.functions
    declarations := h.declarations
    parents := h.parents ▸ forall₂_self (fun p => ⟨rfl, rfl⟩) a.parents }
  have hcalls : a.initializerCalls = b.initializerCalls := by
    rw [initializerCalls, initializerCalls, h.parents]
  exact hframe.source h.license h.tags hcalls naming

/-- Contracts with the same parts are equal, unless NaN is among the arguments of initializers. -/
theorem beq_iff (h : a.SameParts b) :
    (a == b) = true ↔
      ∀ p ∈ a.parents, ∀ v ∈ p.params, ∀ n, v.innermost = .number n → n.datum ≠ .nan := by
  constructor
  · intro hequal p hp v hv n hn
    obtain ⟨-, -, -, hparents⟩ := sameFrame_of_beq hequal
    obtain ⟨q, -, hpq⟩ := exists_of_mem_forall₂ hparents hp
    obtain ⟨w, -, hvw⟩ := exists_of_mem_forall₂ (Parent.eq_and_forall₂_of_beq hpq).2 hv
    exact Value.datum_ne_nan_of_beq hvw hn
  · intro hnan
    have hparents : (a.parents == b.parents) = true := by
      rw [← h.parents]
      refine beq_self_of_forall_mem fun p hp => Parent.beq_self_of_params ?_
      exact beq_self_of_forall_mem fun v hv => Value.beq_self_of_ne_nan (hnan p hp v hv)
    change a.same b = true
    simp only [same, hparents, h.name, h.license, h.upgradeable, h.attachments, h.tags,
      h.constructorArgs, h.constructorCode, h.functions, h.declarations, beq_self_eq_true,
      Bool.and_self]

end SameParts

/-- Contracts are equal when their parts are. -/
theorem beq_iff_sameParts (ha : a.IsDumpable) (hb : b.IsDumpable) :
    (a == b) = true ↔ a.SameParts b := by
  constructor
  · intro h
    change a.same b = true at h
    simp only [same, Bool.and_eq_true, beq_iff_eq] at h
    obtain ⟨⟨⟨⟨⟨⟨⟨⟨⟨hname, hlicense⟩, hupgradeable⟩, hattachments⟩, htags⟩, hargs⟩, hcode⟩,
      hparents⟩, hfunctions⟩, hdeclarations⟩ := h
    have hsame : a.parents = b.parents := eq_of_forall₂ (forall₂_of_beq hparents)
      fun p hp q hq => Parent.eq_of_beq (ha p hp) (hb q hq)
    exact ⟨hname, hlicense, hupgradeable, hsame, hattachments, htags, hfunctions, hargs, hcode,
      hdeclarations⟩
  · intro h
    exact h.beq_iff.mpr fun p hp v hv n hn => (ha p hp v hv n hn).finite.datum_ne_nan

/-- **The JSON of a contract determines its parts**, and nothing else goes into it. -/
theorem json_eq_iff_sameParts : a.json = b.json ↔ a.SameParts b := by
  constructor
  · intro h
    simp only [json, Json.object.injEq, List.cons.injEq, Prod.mk.injEq, Json.text.injEq,
      Json.bool.injEq, true_and, and_true] at h
    obtain ⟨hname, hlicense, hupgradeable, hparents, hattachments, -, htags, hfunctions, hargs,
      hcode, hdeclarations⟩ := h
    exact {
      name := hname
      license := hlicense
      upgradeable := hupgradeable
      parents := Json.array_map_injective Parent.json_injective hparents
      attachments := Json.array_map_injective Attachment.json_injective hattachments
      tags := Json.array_map_injective Tag.json_injective htags
      functions := Json.array_map_injective ContractFunction.json_injective hfunctions
      constructorArgs := Argument.listJson_injective hargs
      constructorCode := Json.texts_injective hcode
      declarations := Json.texts_injective hdeclarations }
  · intro h
    -- imports are dumped too, but are those of base modules and libraries
    simp only [json, h.imports, h.name, h.license, h.upgradeable, h.parents, h.attachments, h.tags,
      h.functions, h.constructorArgs, h.constructorCode, h.declarations]

/-- **The dump determines the contract.** Two contracts whose numbers are finite and no negative
zeros are equal just when they have the same parts, as they are presented, and just when their dumps
are the same text, be it compact or spread over lines. -/
theorem beq_iff_dump_eq (ha : a.IsDumpable) (hb : b.IsDumpable) :
    ((a == b) = true ↔ a.SameParts b) ∧
      ((a == b) = true ↔ a.json.compact = b.json.compact) ∧
      ((a == b) = true ↔ a.json.pretty = b.json.pretty) := by
  have hparts := beq_iff_sameParts ha hb
  have hfinite := finite_json ha
  have hfinite' := finite_json hb
  refine ⟨hparts, ?_, ?_⟩
  · rw [hparts, ← json_eq_iff_sameParts]
    exact ⟨fun h => by rw [h], Json.eq_of_compact_eq hfinite hfinite'⟩
  · rw [hparts, ← json_eq_iff_sameParts]
    exact ⟨fun h => by rw [h], Json.eq_of_pretty_eq hfinite hfinite'⟩

/-- The same contract built in two orders, with one half among its arguments. -/
theorem beq_iff_dump_eq_of_reordered :
    let half : Value := .note "half" (.number ⟨0x3fe0000000000000⟩)
    let a := (Contract.new "Demo").run
      [.addParent { name := "Initializable", path := "contracts/Initializable" } [],
        .addParent { name := "Token", path := "contracts/Token" } [half]]
    let b := (Contract.new "Demo").run
      [.addParent { name := "Token", path := "contracts/Token" } [half],
        .addParent { name := "Initializable", path := "contracts/Initializable" } []]
    a.IsDumpable ∧ b.IsDumpable ∧ (a == b) = true ∧ a.json.compact = b.json.compact := by
  intro half a b
  have hparents : a.parents = [⟨{ name := "Initializable", path := "contracts/Initializable" }, []⟩,
      ⟨{ name := "Token", path := "contracts/Token" }, [half]⟩] := rfl
  have hparents' : b.parents = a.parents := rfl
  have hhalf : half.IsDumpable := by
    rintro n ⟨⟩
    exact ⟨⟨false, _, _, rfl⟩, fun q => nofun⟩
  have ha : a.IsDumpable := by
    rw [IsDumpable, hparents]
    simpa using hhalf
  have hb : b.IsDumpable := by
    rw [IsDumpable, hparents']
    exact ha
  have hequal : (a == b) = true := by decide
  exact ⟨ha, hb, hequal, (beq_iff_dump_eq ha hb).2.1.mp hequal⟩

end Contract

end CairoForge
