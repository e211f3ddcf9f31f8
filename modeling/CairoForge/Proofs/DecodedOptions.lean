import CairoForge.Proofs.KeyedRecords
import CairoForge.Proofs.ReadJson
import Mathlib.Data.List.Nodup

/-!
# Decoded options

Decoding the options of a token means overriding the defaults. The members of an object are read
twice, for what only a token has and for what is shared, and the values for contact and license a
third time; each time a member is looked for under its own name and refused when it comes again. So
every option is settled on its own, by the values given under its name, and nothing else in the text
matters.

## Main definitions

* `MetadataKey`, `SharedKey`, `OptionKey` — the keys of the options, with their names and what is
  chosen under them.
* `OptionKey.IsReadFrom`, `OptionKey.Takes` — what an option can be read from, and how that is
  spelled.
* `IsObjectOf` — the text of an object that can be kept.

## Main results

* `Metadata.decode_eq_ok_iff`, `AccessMode.decode_eq_ok_iff` — what contact and license and the mode
  of access are decoded from.
* `TokenOptions.ofMembers_eq_ok_iff` — options are decoded when each is settled by its values.
* `IsObjectOf.exists_iff` — the texts that parse as an object are the texts of objects.
* `TokenOptions.decode_overrides` — decoding options overrides the defaults.
-/

namespace CairoForge

/-! ## Contact and license -/

/-- The keys of contact and license. -/
inductive MetadataKey where
  | securityContact
  | license
  deriving DecidableEq

namespace MetadataKey

/-- The name of a member. -/
def name : MetadataKey → String
  | securityContact => "securityContact"
  | license => "license"

theorem name_injective : Function.Injective name := by
  intro a b h
  cases a <;> cases b <;> first | rfl | exact absurd h (by decide)

/-- What contact and license say for each key. -/
def view : Metadata ≃ (MetadataKey → String) where
  toFun info
    | securityContact => info.securityContact
    | license => info.license
  invFun f := ⟨f securityContact, f license⟩
  left_inv _ := rfl
  right_inv f := funext fun key => by cases key <;> rfl

/-- Contact and license by their keys. -/
def keyed : KeyedFields Metadata.form.fields (fun _ : MetadataKey => String) where
  view := view
  name := name
  stands _ r s := r = .text s
  own := [securityContact, license]
  name_injective := name_injective
  names := rfl
  find
    | securityContact, _ => ⟨_, rfl, fun _ _ _ => put_eq_ok_iff _ Reading.string_eq_ok_iff⟩
    | license, _ => ⟨_, rfl, fun _ _ _ => put_eq_ok_iff _ Reading.string_eq_ok_iff⟩

end MetadataKey

namespace Metadata

/-- **What contact and license are read from**: an object that settles both, or an array of at most
two texts, contact first. -/
def IsReadFrom (r : Reading) (info : Metadata) : Prop :=
  (∃ members, r = .object (usable members) none ∧ ∀ key : MetadataKey,
    Settles (fun r s => r = .text s) (MetadataKey.view {} key) (valuesOf key.name members)
      (MetadataKey.view info key)) ∨
  ∃ texts : List String, texts.length ≤ 2 ∧ r = .array (texts.map .text) none ∧
    info = ⟨texts.getD 0 "", texts.getD 1 "MIT"⟩

theorem readMembers_eq_ok_iff {members : List (String × Reading)} {info : Metadata} :
    readMembers form.fields (fun _ => .ok ()) [] {} (usable members) = .ok info ↔
      ∀ key : MetadataKey, Settles (fun r s => r = .text s) (MetadataKey.view {} key)
        (valuesOf key.name members) (MetadataKey.view info key) :=
  MetadataKey.keyed.readMembers_eq_ok_iff_of_all fun key => by cases key <;> decide

/-- An array is decoded when it holds at most two texts. -/
theorem decode_array_eq_ok_iff {items : List Reading} {stop? : Option Fault} {info : Metadata} :
    decode .kept (.array items stop?) = .ok info ↔
      ∃ texts : List String, texts.length ≤ 2 ∧ (items = texts.map .text ∧ stop? = none) ∧
        info = ⟨texts.getD 0 "", texts.getD 1 "MIT"⟩ := by
  constructor
  · intro h
    obtain ⟨read, hitems, h⟩ := bind_eq_ok_iff.mp h
    have hlength : ¬ form.fields.length < items.length := by
      intro hlong
      rw [if_pos hlong] at h
      cases h
    rw [if_neg hlength] at h
    obtain ⟨⟨⟩, hstop, h⟩ := bind_eq_ok_iff.mp h
    obtain rfl := Except.ok.inj h
    obtain rfl := endsWith_eq_ok_iff.mp hstop
    -- at most as many items as there are fields, each a text
    match items, hlength with
    | [], _ => exact ⟨[], by decide, ⟨rfl, rfl⟩, (Except.ok.inj hitems).symm⟩
    | [_], _ =>
      obtain ⟨first, hfirst, hitems⟩ := bind_eq_ok_iff.mp hitems
      obtain ⟨contact, rfl, rfl⟩ := (put_eq_ok_iff _ Reading.string_eq_ok_iff).mp hfirst
      exact ⟨[contact], by simp, ⟨rfl, rfl⟩, (Except.ok.inj hitems).symm⟩
    | [_, _], _ =>
      obtain ⟨first, hfirst, hitems⟩ := bind_eq_ok_iff.mp hitems
      obtain ⟨contact, rfl, rfl⟩ := (put_eq_ok_iff _ Reading.string_eq_ok_iff).mp hfirst
      obtain ⟨second, hsecond, hitems⟩ := bind_eq_ok_iff.mp hitems
      obtain ⟨license, rfl, rfl⟩ := (put_eq_ok_iff _ Reading.string_eq_ok_iff).mp hsecond
      exact ⟨[contact, license], by simp, ⟨rfl, rfl⟩, (Except.ok.inj hitems).symm⟩
    | _ :: _ :: _ :: rest, hlength => exact absurd (by simp [form]) hlength
  · rintro ⟨texts, hlength, ⟨rfl, rfl⟩, rfl⟩
    match texts, hlength with
    | [], _ => rfl
    | [_], _ => rfl
    | [_, _], _ => rfl

/-- An object is decoded when it settles contact and license. -/
theorem decode_object_eq_ok_iff {members : List (MemberName × Reading)} {stop? : Option Fault}
    {info : Metadata} :
    decode .kept (.object members stop?) = .ok info ↔
      ∃ named, (members = usable named ∧ stop? = none) ∧ ∀ key : MetadataKey,
        Settles (fun r s => r = .text s) (MetadataKey.view {} key) (valuesOf key.name named)
          (MetadataKey.view info key) := by
  constructor
  · intro h
    obtain ⟨_, hread, h⟩ := bind_eq_ok_iff.mp h
    obtain ⟨⟨⟩, hstop, h⟩ := bind_eq_ok_iff.mp h
    obtain rfl := Except.ok.inj h
    obtain ⟨named, rfl⟩ := usable_of_readMembers hread
    exact ⟨named, ⟨rfl, endsWith_eq_ok_iff.mp hstop⟩, readMembers_eq_ok_iff.mp hread⟩
  · rintro ⟨named, ⟨rfl, rfl⟩, hsettled⟩
    exact bind_eq_ok_iff.mpr ⟨info, readMembers_eq_ok_iff.mpr hsettled, rfl⟩

theorem decode_eq_ok_iff {r : Reading} {info : Metadata} :
    decode .kept r = .ok info ↔ IsReadFrom r info := by
  cases r with
  | object members stop? => simp [decode_object_eq_ok_iff, IsReadFrom]
  | array items stop? => simp [decode_array_eq_ok_iff, IsReadFrom]
  | _ => exact iff_of_false Reading.wrongType_ne_ok (by simp [IsReadFrom])

end Metadata

/-! ## Access -/

/-- **What a mode is read from**: its name, or an object of one member with that name and an empty
payload. -/
def AccessMode.IsReadFrom (r : Reading) (mode : AccessMode) : Prop :=
  r = .text mode.name ∨
    ∃ payload, r = .object (usable [(mode.name, payload)]) none ∧
      (payload = .null ∨ payload = .object [] none)

theorem Reading.variantNamed_eq_ok_iff {α : Type} {variants : List α} {name : α → String}
    (hname : Function.Injective name) {text : String} {a : α} :
    variantNamed (variants.map fun a => (name a, a)) text = .ok a ↔
      a ∈ variants ∧ text = name a := by
  rw [variantNamed]
  constructor
  · intro h
    split at h
    · next variant hfind =>
      obtain ⟨b, hb, rfl⟩ := List.mem_map.mp (List.mem_of_find?_eq_some hfind)
      have hsame := List.find?_some hfind
      obtain rfl := Except.ok.inj h
      exact ⟨hb, (beq_iff_eq.mp hsame).symm⟩
    · cases h
  · rintro ⟨ha, rfl⟩
    obtain ⟨variant, hfind⟩ : ∃ variant,
        (variants.map fun a => (name a, a)).find? (·.1 == name a) = some variant :=
      Option.isSome_iff_exists.mp
        (List.find?_isSome.mpr ⟨_, List.mem_map_of_mem ha, beq_self_eq_true _⟩)
    obtain ⟨b, -, rfl⟩ := List.mem_map.mp (List.mem_of_find?_eq_some hfind)
    have hsame := List.find?_some hfind
    obtain rfl := hname (beq_iff_eq.mp hsame)
    rw [hfind]

theorem Reading.unit_kept_eq_ok_iff {r : Reading} :
    unit .kept r = .ok () ↔ r = .null ∨ r = .object [] none := by
  cases r with
  | null => exact iff_of_true rfl (.inl rfl)
  | object members stop? =>
    rcases members with _ | ⟨member, rest⟩
    · cases stop? with
      | none => exact iff_of_true rfl (.inr rfl)
      | some cause => exact iff_of_false wrongType_ne_ok (by simp)
    · exact iff_of_false wrongType_ne_ok (by simp)
  | _ => exact iff_of_false wrongType_ne_ok (by simp)

theorem AccessMode.name_injective : Function.Injective name := by
  intro a b h
  cases a <;> cases b <;> first | rfl | exact absurd h (by decide)

theorem AccessMode.decode_eq_ok_iff {r : Reading} {mode : AccessMode} :
    decode .kept r = .ok mode ↔ IsReadFrom r mode := by
  have hnamed : ∀ {name}, Reading.variantNamed (all.map fun mode => (mode.name, mode)) name =
      .ok mode ↔ name = mode.name := by
    intro name
    have hall : mode ∈ all := by cases mode <;> decide
    rw [Reading.variantNamed_eq_ok_iff name_injective, and_iff_right hall]
  cases r with
  | text name =>
    simp only [IsReadFrom, reduceCtorEq, false_and, exists_false, or_false, Reading.text.injEq]
    exact hnamed
  | object members stop? =>
    simp only [IsReadFrom, reduceCtorEq, false_or, Reading.object.injEq]
    -- in an object the mode is the name of the only member, with nothing behind it
    rcases members with _ | ⟨⟨memberName, payload⟩, _ | ⟨second, rest⟩⟩
    · exact iff_of_false (by rintro ⟨⟩) (by simp [usable])
    · constructor
      · intro h
        obtain ⟨name, huse, h⟩ := bind_eq_ok_iff.mp h
        obtain ⟨chosen, hchosen, h⟩ := bind_eq_ok_iff.mp h
        obtain ⟨⟨⟩, hunit, h⟩ := bind_eq_ok_iff.mp h
        obtain ⟨⟨⟩, hstop, h⟩ := bind_eq_ok_iff.mp h
        obtain rfl := Except.ok.inj h
        obtain rfl := MemberName.use_eq_ok_iff.mp huse
        obtain rfl := hnamed.mp hchosen
        exact ⟨payload, ⟨rfl, endsWith_eq_ok_iff.mp hstop⟩, Reading.unit_kept_eq_ok_iff.mp hunit⟩
      · rintro ⟨_, ⟨hmember, rfl⟩, hpayload⟩
        obtain ⟨rfl, rfl⟩ := Prod.mk.inj (List.cons.inj hmember).1
        have hunit := Reading.unit_kept_eq_ok_iff.mpr hpayload
        exact bind_eq_ok_iff.mpr ⟨mode.name, rfl, bind_eq_ok_iff.mpr ⟨mode, hnamed.mpr rfl,
          bind_eq_ok_iff.mpr ⟨(), hunit, rfl⟩⟩⟩
    · exact iff_of_false (by rintro ⟨⟩) (by simp [usable])
  | _ => exact iff_of_false Reading.wrongType_ne_ok (by simp [IsReadFrom])

/-! ## The keys of the options -/

/-- The keys of the shared options. -/
inductive SharedKey where
  | access
  | upgradeable
  | info
  deriving DecidableEq

namespace SharedKey

/-- The name of a member. -/
def name : SharedKey → String
  | access => "access"
  | upgradeable => "upgradeable"
  | info => "info"

/-- What is chosen under a key. -/
def Value : SharedKey → Type
  | access => AccessMode
  | upgradeable => Bool
  | info => Metadata

/-- **What an option is read from.** -/
def IsReadFrom : (key : SharedKey) → Reading → key.Value → Prop
  | access, r, mode => mode.IsReadFrom r
  | upgradeable, r, b => r = .bool b
  | info, r, value => value.IsReadFrom r

/-- The shared options by their keys. -/
def view : SharedOptions ≃ ∀ key : SharedKey, key.Value where
  toFun o
    | access => o.access
    | upgradeable => o.upgradeable
    | info => o.info
  invFun f := ⟨f access, f upgradeable, f info⟩
  left_inv _ := rfl
  right_inv f := funext fun key => by cases key <;> rfl

theorem name_injective : Function.Injective name := by
  intro a b h
  cases a <;> cases b <;> first | rfl | exact absurd h (by decide)

/-- The fields of the shared options read what is chosen under a key. -/
def keyed : KeyedFields (SharedOptions.form .kept).fields Value where
  view := view
  name := name
  stands := IsReadFrom
  own := [access, upgradeable, info]
  name_injective := name_injective
  names := rfl
  find
    | access, _ => ⟨_, rfl, fun _ _ _ => put_eq_ok_iff _ AccessMode.decode_eq_ok_iff⟩
    | upgradeable, _ => ⟨_, rfl, fun _ _ _ => put_eq_ok_iff _ Reading.boolean_eq_ok_iff⟩
    | info, _ => ⟨_, rfl, fun _ _ _ => put_eq_ok_iff _ Metadata.decode_eq_ok_iff⟩

end SharedKey

/-- The keys of the options of a token. -/
inductive OptionKey where
  | name
  | symbol
  | decimals
  | burnable
  | snapshots
  | pausable
  | mintable
  | permit
  | votes
  | flashmint
  | shared (key : SharedKey)
  deriving DecidableEq

namespace OptionKey

/-- The name of a member. -/
def text : OptionKey → String
  | name => "name"
  | symbol => "symbol"
  | decimals => "decimals"
  | burnable => "burnable"
  | snapshots => "snapshots"
  | pausable => "pausable"
  | mintable => "mintable"
  | permit => "permit"
  | votes => "votes"
  | flashmint => "flashmint"
  | shared key => key.name

/-- What is chosen under a key. -/
def Value : OptionKey → Type
  | name | symbol => String
  | decimals => UInt8
  | burnable | snapshots | pausable | mintable | permit | votes | flashmint => Bool
  | shared key => key.Value

/-- **What an option is read from.** -/
def IsReadFrom : (key : OptionKey) → Reading → key.Value → Prop
  | name, r, s | symbol, r, s => r = .text s
  | decimals, r, n => r = .number (some (.integer (UInt8.toNat n)))
  | burnable, r, b | snapshots, r, b | pausable, r, b | mintable, r, b | permit, r, b | votes, r, b
  | flashmint, r, b => r = .bool b
  | shared key, r, v => key.IsReadFrom r v

/-- The options of a token by their keys. -/
def view : TokenOptions ≃ ∀ key : OptionKey, key.Value where
  toFun o
    | name => o.name
    | symbol => o.symbol
    | decimals => o.decimals
    | burnable => o.burnable
    | snapshots => o.snapshots
    | pausable => o.pausable
    | mintable => o.mintable
    | permit => o.permit
    | votes => o.votes
    | flashmint => o.flashmint
    | shared key => SharedKey.view o.shared key
  invFun f := ⟨f name, f symbol, f decimals, f burnable, f snapshots, f pausable, f mintable,
    f permit, f votes, f flashmint, SharedKey.view.symm fun key => f (shared key)⟩
  left_inv _ := rfl
  right_inv f := funext fun key => by
    rcases key with _ | _ | _ | _ | _ | _ | _ | _ | _ | _ | key
    all_goals first | rfl | (cases key <;> rfl)

/-- The keys of the members that only a token has. -/
def own : List OptionKey :=
  [name, symbol, decimals, burnable, snapshots, pausable, mintable, permit, votes, flashmint]

/-- All keys. -/
def all : List OptionKey :=
  own ++ [shared .access, shared .upgradeable, shared .info]

theorem mem_all (key : OptionKey) : key ∈ all := by
  rcases key with _ | _ | _ | _ | _ | _ | _ | _ | _ | _ | key
  all_goals first | decide | (cases key <;> decide)

theorem text_injective : Function.Injective text := by
  have hnodup : (all.map text).Nodup := by decide
  exact fun a b h => List.inj_on_of_nodup_map hnodup (mem_all a) (mem_all b) h

/-- The fields of a token read what is chosen under a key. -/
def keyed : KeyedFields TokenOptions.fields Value where
  view := view
  name := text
  stands := IsReadFrom
  own := own
  name_injective := text_injective
  names := rfl
  find
    | name, _ => ⟨_, rfl, fun _ _ _ => put_eq_ok_iff _ Reading.string_eq_ok_iff⟩
    | symbol, _ => ⟨_, rfl, fun _ _ _ => put_eq_ok_iff _ Reading.string_eq_ok_iff⟩
    | decimals, _ => ⟨_, rfl, fun _ _ _ => put_eq_ok_iff _ Reading.byte_eq_ok_iff⟩
    | burnable, _ => ⟨_, rfl, fun _ _ _ => put_eq_ok_iff _ Reading.boolean_eq_ok_iff⟩
    | snapshots, _ => ⟨_, rfl, fun _ _ _ => put_eq_ok_iff _ Reading.boolean_eq_ok_iff⟩
    | pausable, _ => ⟨_, rfl, fun _ _ _ => put_eq_ok_iff _ Reading.boolean_eq_ok_iff⟩
    | mintable, _ => ⟨_, rfl, fun _ _ _ => put_eq_ok_iff _ Reading.boolean_eq_ok_iff⟩
    | permit, _ => ⟨_, rfl, fun _ _ _ => put_eq_ok_iff _ Reading.boolean_eq_ok_iff⟩
    | votes, _ => ⟨_, rfl, fun _ _ _ => put_eq_ok_iff _ Reading.boolean_eq_ok_iff⟩
    | flashmint, _ => ⟨_, rfl, fun _ _ _ => put_eq_ok_iff _ Reading.boolean_eq_ok_iff⟩
    | shared key, hkey => by cases key <;> exact absurd hkey (by decide)

theorem own_or_shared (key : OptionKey) : key ∈ own ∨ ∃ sharedKey, key = shared sharedKey := by
  rcases key with _ | _ | _ | _ | _ | _ | _ | _ | _ | _ | sharedKey
  all_goals first | exact .inl (by decide) | exact .inr ⟨sharedKey, rfl⟩

/-- The shared options do not show under the keys that only a token has. -/
theorem view_shared (o : TokenOptions) (s : SharedOptions) :
    ∀ key ∈ own, view { o with shared := s } key = view o key := by
  intro key hkey
  rcases key with _ | _ | _ | _ | _ | _ | _ | _ | _ | _ | key
  all_goals first | rfl | (cases key <;> exact absurd hkey (by decide))

end OptionKey

theorem SharedOptions.readMembers_eq_ok_iff {members : List (String × Reading)}
    {s : SharedOptions} :
    readMembers (form .kept).fields (fun _ => .ok ()) [] {} (usable members) = .ok s ↔
      ∀ key : SharedKey, Settles key.IsReadFrom (SharedKey.view {} key) (valuesOf key.name members)
        (SharedKey.view s key) :=
  SharedKey.keyed.readMembers_eq_ok_iff_of_all fun key => by cases key <;> decide

/-- **Options are decoded from their members** when the values of each key settle what they say for
that key, starting from the defaults. -/
theorem TokenOptions.ofMembers_eq_ok_iff {members : List (String × Reading)}
    (hkept : ∀ member ∈ members, member.2.keep 1 = .ok ()) {o : TokenOptions} :
    ofMembers (usable members) none = .ok o ↔
      ∀ key : OptionKey, Settles key.IsReadFrom (OptionKey.view {} key) (valuesOf key.text members)
        (OptionKey.view o key) := by
  constructor
  · intro h
    obtain ⟨own, hown, h⟩ := bind_eq_ok_iff.mp h
    obtain ⟨⟨⟩, -, h⟩ := bind_eq_ok_iff.mp h
    obtain ⟨shared, hshared, h⟩ := bind_eq_ok_iff.mp h
    obtain rfl := Except.ok.inj h
    have hsettled := (OptionKey.keyed.readMembers_eq_ok_iff hkept).mp hown
    intro key
    -- keys of the token are read first, those that all contracts have from the same members
    rcases key.own_or_shared with hkey | ⟨sharedKey, rfl⟩
    · rw [OptionKey.view_shared own shared key hkey]
      exact hsettled.settles key hkey
    · exact SharedOptions.readMembers_eq_ok_iff.mp hshared sharedKey
  · intro h
    -- reading the own members leaves the shared options at their defaults
    have hown : readMembers fields (Reading.keep 1) [] {} (usable members) =
        .ok { o with shared := {} } := by
      refine (OptionKey.keyed.readMembers_eq_ok_iff hkept).mpr
        ⟨fun _ _ hseen => absurd hseen List.not_mem_nil, fun key hkey => ?_, fun key hkey => ?_⟩
      · have hview := OptionKey.view_shared o {} key hkey
        exact hview.symm ▸ h key
      · obtain ⟨sharedKey, rfl⟩ := key.own_or_shared.resolve_left hkey
        rfl
    have hshared := SharedOptions.readMembers_eq_ok_iff.mpr fun key => h (.shared key)
    exact bind_eq_ok_iff.mpr ⟨_, hown, bind_eq_ok_iff.mpr ⟨(), rfl,
      bind_eq_ok_iff.mpr ⟨o.shared, hshared, rfl⟩⟩⟩

/-! ## Options from a text -/

/-- **The text of an object** with these members, all of which can be kept. -/
structure IsObjectOf (rounding : Rounding) (text : List Char)
    (members : List (String × Spelled)) : Prop where
  spelled : ∃ before content after, IsGap before ∧ IsGap after ∧
    SpellsMembers rounding content members ∧
      text = before ++ ('\x7b' :: (content ++ ['\x7d']) ++ after)
  kept : ∀ member ∈ members, member.2.reading.keep 1 = .ok ()

/-- Members with what is read of their values. -/
def namedReadings (members : List (String × Spelled)) : List (String × Reading) :=
  members.map fun (name, value) => (name, value.reading)

theorem usable_namedReadings (members : List (String × Spelled)) :
    usable (namedReadings members) = readingsOf members := by
  simp [usable, namedReadings, readingsOf]

theorem valuesOf_namedReadings (name : String) (members : List (String × Spelled)) :
    valuesOf name (namedReadings members) = (valuesOf name members).map (·.reading) := by
  induction members with
  | nil => rfl
  | cons member rest ih =>
    obtain ⟨other, value⟩ := member
    have hcons : namedReadings ((other, value) :: rest) =
        (other, value.reading) :: namedReadings rest := rfl
    by_cases hname : other = name
    · subst hname
      rw [hcons, valuesOf_cons_same, valuesOf_cons_same, ih, List.map_cons]
    · rw [hcons, valuesOf_cons_other hname, valuesOf_cons_other hname, ih]

/-- The values of members are spelled by their texts. -/
theorem SpellsMembers.spells_of_mem {rounding : Rounding} {cs : List Char}
    {members : List (String × Spelled)} (h : SpellsMembers rounding cs members) :
    ∀ member ∈ members, Spells rounding member.2.text member.2.reading := by
  have hpadded : ∀ {item value}, SpellsPadded rounding item value →
      Spells rounding value.text value.reading := by
    rintro item value ⟨-, hvalue, -⟩
    exact hvalue
  -- the grammar grows at its end, so does the induction
  induction members using List.reverseRecOn generalizing cs with
  | nil => exact fun _ hnone => absurd hnone List.not_mem_nil
  | append_singleton members last ih =>
    generalize hall : members ++ [last] = all at h
    cases h with
    | none => simp at hall
    | one _ _ hitem =>
      intro member hmember
      rw [List.mem_singleton.mp hmember]
      exact hpadded hitem
    | more hcs _ _ _ hitem =>
      obtain ⟨rfl, -⟩ := List.append_inj' hall rfl
      intro member hmember
      rcases List.mem_append.mp hmember with hmember | hmember
      · exact ih hcs member hmember
      · rw [List.mem_singleton.mp hmember]
        exact hpadded hitem

namespace IsObjectOf

variable {rounding : Rounding} {text : String} {members : List (String × Spelled)}

/-- The object is read. -/
theorem ofText (h : IsObjectOf rounding text.toList members) :
    Transcript.ofText rounding text = ⟨.object (readingsOf members) none, none⟩ := by
  obtain ⟨before, content, after, hbefore, hafter, hcontent, htext⟩ := h.spelled
  have hpadded := SpellsPadded.padded hbefore (.object hcontent) hafter
  rw [← htext] at hpadded
  exact Transcript.ofText_spelled hpadded

/-- **A text parses as an object** that can be kept when it is the text of one. -/
theorem exists_iff :
    (∃ readings, Transcript.ofText rounding text = ⟨.object readings none, none⟩ ∧
        Reading.keep 0 (.object readings none) = .ok ()) ↔
      ∃ members, IsObjectOf rounding text.toList members := by
  constructor
  · rintro ⟨readings, hread, hkeep⟩
    obtain ⟨value, hspelled⟩ := Transcript.spelled_of_ofText hread hkeep
    generalize htext : text.toList = cs at hspelled
    cases hspelled with
    | padded hbefore hvalue hafter =>
      cases hvalue with
      | @object content members hcontent =>
        have hkept := (Reading.keep_object_eq_ok_iff.mp hkeep).2.1
        refine ⟨members, ⟨_, _, _, hbefore, hafter, hcontent, rfl⟩, fun member hmember => ?_⟩
        exact (hkept (.ok member.1, member.2.reading) (List.mem_map_of_mem hmember)).2
  · rintro ⟨members, h⟩
    refine ⟨_, h.ofText, Reading.keep_object_eq_ok_iff.mpr ⟨by decide, ?_, rfl⟩⟩
    intro member hmember
    obtain ⟨spelled, hspelled, rfl⟩ := List.mem_map.mp hmember
    exact ⟨⟨_, rfl⟩, h.kept spelled hspelled⟩

/-- The value given under a name is spelled by its text. -/
theorem spells (h : IsObjectOf rounding text.toList members) {name : String} {value : Spelled}
    (hvalue : value ∈ valuesOf name members) : Spells rounding value.text value.reading := by
  obtain ⟨_, _, _, -, -, hcontent, -⟩ := h.spelled
  obtain ⟨member, hmember, hsame⟩ := List.mem_filterMap.mp hvalue
  obtain rfl := Option.some.inj (Option.ite_none_right_eq_some.mp hsame).2
  exact SpellsMembers.spells_of_mem hcontent member hmember

end IsObjectOf

/-- **What an option takes**: what it can be read from, and for the decimals just the digits of
their number. -/
def OptionKey.Takes (key : OptionKey) (value : Spelled) (v : key.Value) : Prop :=
  match key, v with
  | decimals, n => value.text = decimalDigits (UInt8.toNat n)
  | key, v => key.IsReadFrom value.reading v

/-- An option takes a value that it can be read from. -/
theorem OptionKey.takes_iff {rounding : Rounding} {key : OptionKey} {value : Spelled}
    (h : Spells rounding value.text value.reading) {v : key.Value} :
    key.Takes value v ↔ key.IsReadFrom value.reading v := by
  cases key with
  | decimals =>
    have hword : UInt8.toNat v < Numeral.wordLimit := by
      have hlt := UInt8.toNat_lt v
      have hlimit : Numeral.wordLimit = 0x10000000000000000 := rfl
      omega
    exact (h.integer_iff hword).symm
  | _ => exact Iff.rfl

namespace TokenOptions

variable {rounding : Rounding} {text : String} {members : List (String × Spelled)}

/-- **Options are decoded from an object** when what is read under each key settles it. -/
theorem decode_ofText_eq_ok_iff (h : IsObjectOf rounding text.toList members) {o : TokenOptions} :
    (Transcript.ofText rounding text).decode decode = .ok o ↔
      ∀ key : OptionKey, Settles key.IsReadFrom (OptionKey.view {} key)
        ((valuesOf key.text members).map (·.reading)) (OptionKey.view o key) := by
  have hkept : ∀ member ∈ namedReadings members, member.2.keep 1 = .ok () := by
    intro member hmember
    obtain ⟨spelled, hspelled, rfl⟩ := List.mem_map.mp hmember
    exact h.kept spelled hspelled
  have hread : decode (.object (readingsOf members) none) =
      ofMembers (usable (namedReadings members)) none := by
    rw [usable_namedReadings]
    rfl
  rw [Transcript.decode_eq_ok_iff, h.ofText, and_iff_left rfl, hread, ofMembers_eq_ok_iff hkept]
  simp only [valuesOf_namedReadings]

/-- **Decoding options overrides the defaults.** The texts that parse as an object within the limits
of depth and size are those of an object with members of any names, in any order and however often.
From such a text options are decoded just when each key is given at most once, with a value that its
option takes; they then say what those values stand for under the keys that are given, and what the
defaults say under all others. Another text from whose values under the known keys the same is read
stands for the same options, whatever its other members, its blanks and its order. -/
theorem decode_overrides (rounding : Rounding) (text : String) :
    ((∃ readings, Transcript.ofText rounding text = ⟨.object readings none, none⟩ ∧
        Reading.keep 0 (.object readings none) = .ok ()) ↔
      ∃ members, IsObjectOf rounding text.toList members) ∧
    ∀ members, IsObjectOf rounding text.toList members →
      ((∃ o, (Transcript.ofText rounding text).decode decode = .ok o) ↔
        ∀ key : OptionKey, (valuesOf key.text members).length ≤ 1 ∧
          ∀ value ∈ valuesOf key.text members, ∃ v, key.Takes value v) ∧
      (∀ o, (Transcript.ofText rounding text).decode decode = .ok o ↔
        ∀ key : OptionKey, Settles key.Takes (OptionKey.view {} key) (valuesOf key.text members)
          (OptionKey.view o key)) ∧
      ∀ other others, IsObjectOf rounding other.toList others →
        (∀ key : OptionKey, (valuesOf key.text others).map (·.reading) =
          (valuesOf key.text members).map (·.reading)) →
        ∀ o, (Transcript.ofText rounding other).decode decode = .ok o ↔
          (Transcript.ofText rounding text).decode decode = .ok o := by
  refine ⟨IsObjectOf.exists_iff, fun members h => ?_⟩
  have hsettled : ∀ o, (Transcript.ofText rounding text).decode decode = .ok o ↔
      ∀ key : OptionKey, Settles key.Takes (OptionKey.view {} key) (valuesOf key.text members)
        (OptionKey.view o key) := by
    intro o
    rw [decode_ofText_eq_ok_iff h]
    refine forall_congr' fun key => ?_
    rw [settles_map]
    exact settles_congr fun value hvalue => (OptionKey.takes_iff (h.spells hvalue)).symm
  refine ⟨?_, hsettled, fun other others hother hsame o => ?_⟩
  · constructor
    · rintro ⟨o, ho⟩ key
      exact exists_settles_iff.mp ⟨_, (hsettled o).mp ho key⟩
    · intro hkeys
      -- what each key is settled to makes up the options
      choose v hv using fun key =>
        (@exists_settles_iff _ _ _ (OptionKey.view {} key) _).mpr (hkeys key)
      refine ⟨OptionKey.view.symm v, (hsettled _).mpr fun key => ?_⟩
      rw [Equiv.apply_symm_apply]
      exact hv key
  · rw [decode_ofText_eq_ok_iff hother, decode_ofText_eq_ok_iff h]
    simp only [hsame]

/-- An unknown member, a blank and the decimals: all other options keep their defaults. -/
theorem decode_overrides_of_decimals :
    IsObjectOf .once "\x7b\"x\":null, \"decimals\": 6\x7d".toList
        [("x", ⟨['n', 'u', 'l', 'l'], .null⟩),
          ("decimals", ⟨['6'], .number (some (.integer 6))⟩)] ∧
      (Transcript.ofText .once "\x7b\"x\":null, \"decimals\": 6\x7d").decode decode =
        .ok { decimals := 6 } := by
  have hx : SpellsName ['"', 'x', '"', ':'] "x" :=
    @SpellsName.name ['x'] ['x'] [] (spellsText_self (by simp)) IsGap.nil
  have hname : SpellsName ['"', 'd', 'e', 'c', 'i', 'm', 'a', 'l', 's', '"', ':'] "decimals" :=
    @SpellsName.name ['d', 'e', 'c', 'i', 'm', 'a', 'l', 's'] _ []
      (spellsText_self (by simp)) IsGap.nil
  have hsix : Spells .once ['6'] (.number (some (.integer 6))) :=
    .number (@SpellsNumeral.parts false ['6'] [] [] [] none (by decide) .none .none)
  have hgap : IsGap [' '] := by decide
  have hmembers := SpellsMembers.more
    (.one IsGap.nil hx (.padded IsGap.nil .null IsGap.nil)) (List.cons_ne_nil _ _)
    hgap hname (.padded hgap hsix IsGap.nil)
  have hobject : IsObjectOf .once "\x7b\"x\":null, \"decimals\": 6\x7d".toList
      [("x", ⟨['n', 'u', 'l', 'l'], .null⟩), ("decimals", ⟨['6'], .number (some (.integer 6))⟩)] :=
    ⟨⟨[], _, [], IsGap.nil, IsGap.nil, hmembers, rfl⟩, by simp [Reading.keep]⟩
  refine ⟨hobject, (((decode_overrides .once _).2 _ hobject).2.1 _).mpr fun key => ?_⟩
  rcases key with _ | _ | _ | _ | _ | _ | _ | _ | _ | _ | _ | _ | _
  all_goals rfl

end TokenOptions

end CairoForge
