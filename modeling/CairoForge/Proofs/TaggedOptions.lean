import CairoForge.Proofs.DecodedMembers

/-!
# Options with and without a kind

A request is decoded in two goes: its kind is taken out while the members are read, and the options
are decoded from what was kept of the others. The options of a token are decoded as their members
come. Both take the same texts for the same options, as long as the kind is given once.

## Main results

* `TokenOptions.keep_of_read` — what a field of a token takes can be kept.
* `Request.splitKind_eq_ok_iff` — when a kind is found among members.
* `Request.decode_eq_ok_iff` — when a request is decoded from what was read.
* `Request.ofText_eq_ok_iff` — requests are the options that come with their kind.
-/

namespace CairoForge

namespace TokenOptions

/-- **What a field of a token takes** can be kept: it holds nothing else. -/
theorem keep_of_read {field : Field TokenOptions} (hfield : field ∈ fields) {o o' : TokenOptions}
    {r : Reading} (h : field.read o r = .ok o') : r.keep 1 = .ok () := by
  have hstring : ∀ {s}, r.string = .ok s → r.keep 1 = .ok () := by
    intro s hs
    obtain rfl := Reading.string_eq_ok_iff.mp hs
    rfl
  have hboolean : ∀ {b}, r.boolean = .ok b → r.keep 1 = .ok () := by
    intro b hb
    obtain rfl := Reading.boolean_eq_ok_iff.mp hb
    rfl
  simp only [fields, List.mem_cons, List.not_mem_nil, or_false] at hfield
  rcases hfield with rfl | rfl | rfl | hflag
  · obtain ⟨s, hs, -⟩ := bind_eq_ok_iff.mp h
    exact hstring hs
  · obtain ⟨s, hs, -⟩ := bind_eq_ok_iff.mp h
    exact hstring hs
  · obtain ⟨n, hn, -⟩ := bind_eq_ok_iff.mp h
    obtain rfl := Reading.byte_eq_ok_iff.mp hn
    rfl
  · -- all others are flags
    rcases hflag with rfl | rfl | rfl | rfl | rfl | rfl | rfl <;>
      exact (bind_eq_ok_iff.mp h).elim fun b hb => hboolean hb.1

/-- Options are decoded from members that can be kept. -/
theorem kept_of_ofMembers {members : List (MemberName × Reading)} {stop? : Option Fault}
    {o : TokenOptions} (h : ofMembers members stop? = .ok o) : ∀ member ∈ members, Kept member := by
  obtain ⟨own, hown, -⟩ := bind_eq_ok_iff.mp h
  exact kept_of_readMembers (fun _ hkept => hkept) (fun _ hfield _ _ _ => keep_of_read hfield) hown

/-- A kind among the members makes no difference, wherever it stands. -/
theorem ofMembers_insert_kind (before after : List (MemberName × Reading)) (kind : String)
    (stop? : Option Fault) :
    ofMembers (before ++ (.ok Request.kindKey, .text kind) :: after) stop? =
      ofMembers (before ++ after) stop? := by
  have hown : Request.kindKey ∉ fields.map (·.name) := by decide
  have hshared : Request.kindKey ∉ (SharedOptions.form .kept).fields.map (·.name) := by decide
  rw [ofMembers, readMembers_insert hown rfl, readMembers_insert hshared rfl]
  rfl

end TokenOptions

namespace Request

variable {members others : List (MemberName × Reading)}

theorem decodeName_eq_ok_iff {r : Reading} {kind : Kind} :
    Kind.decodeName r = .ok kind ↔ r = .text kind.name := by
  cases kind
  cases r with
  | text name =>
    have hname : Kind.erc20.name = "ERC20" := rfl
    by_cases h : name = "ERC20"
    · subst h
      exact iff_of_true rfl rfl
    · have hother : ¬ ("ERC20" == name) = true := fun hsame => h (beq_iff_eq.mp hsame).symm
      simp [Kind.decodeName, Reading.variantNamed, Kind.variants, Kind.all, hname, h, hother]
  | _ => exact iff_of_false Reading.wrongType_ne_ok (by rintro ⟨⟩)

/-- **One member of a request**: it holds the kind and is the first one to do so, or it is kept. -/
theorem splitKind_cons_eq_ok_iff {kind? result? : Option Kind} {member : MemberName × Reading} :
    splitKind kind? (member :: members) = .ok (result?, others) ↔
      (kind? = none ∧ member = (.ok kindKey, .text "ERC20") ∧
          splitKind (some .erc20) members = .ok (result?, others)) ∨
        ((Kept member ∧ member.1 ≠ .ok kindKey) ∧
          ∃ rest, others = member :: rest ∧ splitKind kind? members = .ok (result?, rest)) := by
  obtain ⟨memberName, r⟩ := member
  rw [splitKind.eq_def]
  cases memberName with
  | error cause => simp [MemberName.use, Except.mapError, bind, Except.bind, Kept]
  | ok name =>
    change (if name = kindKey then _ else _) = _ ↔ _
    -- the first member of this name is the kind, a second one is a fault
    by_cases hname : name = kindKey
    · subst hname
      rw [if_pos rfl]
      cases kind? with
      | none =>
        constructor
        · intro h
          obtain ⟨⟨⟩, hkind, hrest⟩ := bind_eq_ok_iff.mp h
          obtain rfl := decodeName_eq_ok_iff.mp hkind
          exact .inl ⟨rfl, rfl, hrest⟩
        · rintro (⟨-, hmember, hrest⟩ | ⟨⟨-, hother⟩, -⟩)
          · obtain rfl := (Prod.mk.inj hmember).2
            exact bind_eq_ok_iff.mpr ⟨.erc20, decodeName_eq_ok_iff.mpr rfl, hrest⟩
          · exact absurd rfl hother
      | some kind => exact iff_of_false (by rintro ⟨⟩) (by simp)
    · rw [if_neg hname]
      constructor
      · intro h
        obtain ⟨⟨⟩, hkeep, h⟩ := bind_eq_ok_iff.mp h
        obtain ⟨⟨_, rest⟩, hrest, h⟩ := bind_eq_ok_iff.mp h
        obtain ⟨rfl, rfl⟩ := Prod.mk.inj (Except.ok.inj h)
        exact .inr ⟨⟨⟨⟨name, rfl⟩, hkeep⟩, fun hkind => hname (Except.ok.inj hkind)⟩, rest, rfl,
          hrest⟩
      · rintro (⟨-, hmember, -⟩ | ⟨⟨⟨-, hkeep⟩, -⟩, rest, rfl, hrest⟩)
        · exact absurd (Except.ok.inj (Prod.mk.inj hmember).1) hname
        · exact bind_eq_ok_iff.mpr ⟨(), hkeep, bind_eq_ok_iff.mpr ⟨_, hrest, rfl⟩⟩

/-- No kind is found behind the first one. -/
theorem splitKind_some_eq_ok_iff {kind : Kind} {result? : Option Kind} :
    splitKind (some kind) members = .ok (result?, others) ↔
      result? = some kind ∧ others = members ∧
        ∀ member ∈ members, Kept member ∧ member.1 ≠ .ok kindKey := by
  induction members generalizing others with
  | nil => simp [splitKind, eq_comm]
  | cons member rest ih =>
    rw [splitKind_cons_eq_ok_iff, List.forall_mem_cons]
    simp only [reduceCtorEq, false_and, false_or, ih]
    constructor
    · rintro ⟨hmember, _, rfl, rfl, rfl, hrest⟩
      exact ⟨rfl, rfl, hmember, hrest⟩
    · rintro ⟨rfl, rfl, hmember, hrest⟩
      exact ⟨hmember, rest, rfl, rfl, rfl, hrest⟩

/-- **A kind is found** among members that can be kept when one of them, and only one, has it. -/
theorem splitKind_eq_ok_iff {kind : Kind} :
    splitKind none members = .ok (some kind, others) ↔
      ∃ before after, members = before ++ (.ok kindKey, .text "ERC20") :: after ∧
        others = before ++ after ∧
        ∀ member ∈ others, Kept member ∧ member.1 ≠ .ok kindKey := by
  induction members generalizing others with
  | nil => simp [splitKind]
  | cons member rest ih =>
    -- once the kind was found, the members behind it are all others
    rw [splitKind_cons_eq_ok_iff, splitKind_some_eq_ok_iff]
    constructor
    · rintro (⟨-, rfl, -, rfl, hothers⟩ | ⟨hmember, _, rfl, hrest⟩)
      · exact ⟨[], _, rfl, rfl, hothers⟩
      · obtain ⟨before, after, rfl, rfl, hothers⟩ := ih.mp hrest
        exact ⟨member :: before, after, rfl, rfl, List.forall_mem_cons.mpr ⟨hmember, hothers⟩⟩
    · rintro ⟨before, after, hsplit, rfl, hothers⟩
      cases before with
      | nil =>
        obtain ⟨rfl, rfl⟩ := List.cons.inj hsplit
        cases kind
        exact .inl ⟨rfl, rfl, rfl, rfl, hothers⟩
      | cons first before =>
        obtain ⟨rfl, rfl⟩ := List.cons.inj hsplit
        obtain ⟨hmember, hothers⟩ := List.forall_mem_cons.mp hothers
        exact .inr ⟨hmember, before ++ after, rfl, ih.mpr ⟨before, after, rfl, rfl, hothers⟩⟩

/-- **A request is decoded** from an object with one kind among members of which its options are
decoded. -/
theorem decode_eq_ok_iff {r : Reading} {o : TokenOptions} :
    decode r = .ok (.token o) ↔
      TokenOptions.decode r = .ok o ∧
        ∃ before after, r = .object (before ++ (.ok kindKey, .text "ERC20") :: after) none ∧
          ∀ member ∈ before ++ after, member.1 ≠ .ok kindKey := by
  have htoken : ∀ {members}, ofMembers members .erc20 = .ok (.token o) ↔
      TokenOptions.ofMembers members none = .ok o := by
    intro members
    cases h : TokenOptions.ofMembers members none <;>
      simp [ofMembers, h, Except.map, Except.mapError]
  cases r with
  | object members stop? =>
    rw [TokenOptions.decode]
    constructor
    · intro h
      obtain ⟨⟨kind?, others⟩, hsplit, h⟩ := bind_eq_ok_iff.mp h
      obtain ⟨⟨⟩, hstop, h⟩ := bind_eq_ok_iff.mp h
      obtain rfl := endsWith_eq_ok_iff.mp hstop
      cases kind? with
      | none => cases h
      | some kind =>
        obtain ⟨before, after, rfl, rfl, hothers⟩ := splitKind_eq_ok_iff.mp hsplit
        refine ⟨?_, before, after, rfl, fun member hmember => (hothers member hmember).2⟩
        rw [TokenOptions.ofMembers_insert_kind]
        cases kind
        exact htoken.mp h
    · rintro ⟨h, before, after, hmembers, hothers⟩
      obtain ⟨rfl, rfl⟩ := Reading.object.inj hmembers
      rw [TokenOptions.ofMembers_insert_kind] at h
      have hkept := TokenOptions.kept_of_ofMembers h
      have hsplit : splitKind none (before ++ (.ok kindKey, .text "ERC20") :: after) =
          .ok (some .erc20, before ++ after) :=
        splitKind_eq_ok_iff.mpr ⟨before, after, rfl, rfl, fun member hmember =>
          ⟨hkept member hmember, hothers member hmember⟩⟩
      exact bind_eq_ok_iff.mpr ⟨(some .erc20, before ++ after), hsplit, htoken.mpr h⟩
  | array items stop? =>
    refine iff_of_false (fun h => ?_) fun h => Reading.wrongType_ne_ok h.1
    -- whatever an array holds, it cannot hold the options
    cases items with
    | nil =>
      obtain ⟨⟨⟩, -, herror⟩ := bind_eq_ok_iff.mp h
      cases herror
    | cons first rest =>
      obtain ⟨kind, -, h⟩ := bind_eq_ok_iff.mp h
      obtain ⟨⟨⟩, -, h⟩ := bind_eq_ok_iff.mp h
      obtain ⟨⟨⟩, -, herror⟩ := bind_eq_ok_iff.mp h
      cases herror
  | _ => exact iff_of_false Reading.wrongType_ne_ok fun h => Reading.wrongType_ne_ok h.1

/-- **Requests are the options that come with their kind.** A text is decoded as the request for a
token just when its options are decoded from it and its object has one member for the kind, wherever
it stands among the others. -/
theorem ofText_eq_ok_iff (rounding : Rounding) (text : String) (o : TokenOptions) :
    ofText rounding text = .ok (.token o) ↔
      (Transcript.ofText rounding text).decode TokenOptions.decode = .ok o ∧
      ∃ before after, (Transcript.ofText rounding text).root =
          .object (before ++ (.ok "kind", .text "ERC20") :: after) none ∧
        ∀ member ∈ before ++ after, member.1 ≠ .ok "kind" := by
  rw [ofText, Transcript.decode_eq_ok_iff, Transcript.decode_eq_ok_iff, decode_eq_ok_iff,
    and_right_comm]
  rfl

end Request

end CairoForge
