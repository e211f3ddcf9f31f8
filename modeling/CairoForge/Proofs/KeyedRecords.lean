import CairoForge.Proofs.DecodedMembers
import Mathlib.Logic.Equiv.Defs
import Mathlib.Logic.Function.Basic

/-!
# Keyed records

A record is what it says for each of its keys. A member replaces what it says for one of them, and
may come once; so the record that is decoded from members says for each key what the only value
given for it stands for, and what it said at the start where none is given.

## Main definitions

* `valuesOf` — the values that are given under a name.
* `Settles` — what is settled by the values given for something.
* `KeyedFields` — a record by its keys, and how its fields are read.

## Main results

* `KeyedFields.readMembers_eq_ok_iff` — a record is decoded when the values of each key settle what
  it says for that key.
* `usable_of_readMembers` — the names of members that are decoded can be used.
-/

namespace CairoForge

section Settled

variable {β V : Type}

/-- The values that are given under a name, in reading order. -/
def valuesOf (name : String) (members : List (String × β)) : List β :=
  members.filterMap fun (other, value) => if other = name then some value else none

/-- **What is settled** by the values that are given for something: by none its default, by one
what that stands for, by more than one nothing. -/
def Settles (stands : β → V → Prop) (start : V) : List β → V → Prop
  | [], v => v = start
  | [value], v => stands value v
  | _ :: _ :: _, _ => False

theorem valuesOf_cons_same (name : String) (value : β) (rest : List (String × β)) :
    valuesOf name ((name, value) :: rest) = value :: valuesOf name rest := by
  simp [valuesOf]

theorem valuesOf_cons_other {name other : String} (h : other ≠ name) (value : β)
    (rest : List (String × β)) : valuesOf name ((other, value) :: rest) = valuesOf name rest := by
  simp [valuesOf, h]

/-- The first value settles nothing but what it stands for, and no other value may follow. -/
theorem settles_cons_iff {stands : β → V → Prop} {start : V} {value : β} {rest : List β} {v : V} :
    Settles stands start (value :: rest) v ↔ rest = [] ∧ stands value v := by
  cases rest <;> simp [Settles]

theorem settles_congr {stands stands' : β → V → Prop} {start v : V} {values : List β}
    (h : ∀ value ∈ values, stands value v ↔ stands' value v) :
    Settles stands start values v ↔ Settles stands' start values v := by
  rcases values with _ | ⟨value, _ | ⟨second, rest⟩⟩
  · exact Iff.rfl
  · exact h value List.mem_cons_self
  · exact Iff.rfl

theorem settles_map {γ : Type} {stands : β → V → Prop} {start v : V} (f : γ → β) (values : List γ) :
    Settles stands start (values.map f) v ↔
      Settles (fun value => stands (f value)) start values v := by
  rcases values with _ | ⟨value, _ | ⟨second, rest⟩⟩ <;> exact Iff.rfl

/-- Something can be settled just when at most one value is given for it, and that one stands for
something. -/
theorem exists_settles_iff {stands : β → V → Prop} {start : V} {values : List β} :
    (∃ v, Settles stands start values v) ↔
      values.length ≤ 1 ∧ ∀ value ∈ values, ∃ v, stands value v := by
  rcases values with _ | ⟨value, _ | ⟨second, rest⟩⟩
  · exact iff_of_true ⟨start, rfl⟩ ⟨Nat.zero_le 1, fun _ hnone => absurd hnone List.not_mem_nil⟩
  · simp [Settles]
  · simp [Settles]

end Settled

/-- Members whose names can be used. -/
def usable (members : List (String × Reading)) : List (MemberName × Reading) :=
  members.map fun (name, r) => (.ok name, r)

/-- **A record by its keys**: it is what it says for each key. Some of the keys, its `own` ones,
have fields, and reading a field replaces what the record says for its key. -/
structure KeyedFields {α : Type} (fields : List (Field α)) {K : Type} [DecidableEq K]
    (V : K → Type) where
  view : α ≃ ∀ key, V key
  name : K → String
  stands : ∀ key, Reading → V key → Prop
  own : List K
  name_injective : Function.Injective name
  names : fields.map (·.name) = own.map name
  find : ∀ key ∈ own, ∃ field, fields.find? (·.name == name key) = some field ∧
    ∀ a r b, field.read a r = .ok b ↔
      ∃ v, stands key r v ∧ b = view.symm (Function.update (view a) key v)

namespace KeyedFields

variable {α K : Type} [DecidableEq K] {V : K → Type} {fields : List (Field α)}
  (keyed : KeyedFields fields V) {other : Reading → Except DecodeError Unit} {seen : List String}
  {a b : α} {members : List (String × Reading)}

/-- **A record is decoded** when the values of each key settle what it says for that key. -/
structure Decoded (seen : List String) (a : α) (members : List (String × Reading)) (b : α) :
    Prop where
  fresh : ∀ key ∈ keyed.own, keyed.name key ∈ seen → valuesOf (keyed.name key) members = []
  settles : ∀ key ∈ keyed.own, Settles (keyed.stands key) (keyed.view a key)
    (valuesOf (keyed.name key) members) (keyed.view b key)
  others : ∀ key, key ∉ keyed.own → keyed.view b key = keyed.view a key

theorem decoded_nil_iff : keyed.Decoded seen a [] b ↔ a = b := by
  constructor
  · intro h
    refine keyed.view.injective (funext fun key => ?_)
    by_cases hkey : key ∈ keyed.own
    · exact (h.settles key hkey).symm
    · exact (h.others key hkey).symm
  · rintro rfl
    exact ⟨fun _ _ _ => rfl, fun _ _ => rfl, fun _ _ => rfl⟩

theorem decoded_cons_other_iff {name : String} (hname : ∀ key ∈ keyed.own, name ≠ keyed.name key)
    (r : Reading) :
    keyed.Decoded seen a ((name, r) :: members) b ↔ keyed.Decoded seen a members b := by
  have hvalues : ∀ key ∈ keyed.own, valuesOf (keyed.name key) ((name, r) :: members) =
      valuesOf (keyed.name key) members := fun key hkey => valuesOf_cons_other (hname key hkey) r _
  constructor
  · intro h
    exact ⟨fun key hkey hseen => hvalues key hkey ▸ h.fresh key hkey hseen,
      fun key hkey => hvalues key hkey ▸ h.settles key hkey, h.others⟩
  · intro h
    exact ⟨fun key hkey hseen => (hvalues key hkey).trans (h.fresh key hkey hseen),
      fun key hkey => (hvalues key hkey).symm ▸ h.settles key hkey, h.others⟩

theorem decoded_cons_own_iff {key : K} (hkey : key ∈ keyed.own) {r : Reading} :
    keyed.Decoded seen a ((keyed.name key, r) :: members) b ↔
      keyed.name key ∉ seen ∧ ∃ v, keyed.stands key r v ∧
        keyed.Decoded (keyed.name key :: seen)
          (keyed.view.symm (Function.update (keyed.view a) key v)) members b := by
  -- the member adds a value to its own key and to no other one
  have hother : ∀ {k}, k ≠ key → valuesOf (keyed.name k) ((keyed.name key, r) :: members) =
      valuesOf (keyed.name k) members :=
    fun hk => valuesOf_cons_other (fun hsame => hk (keyed.name_injective hsame).symm) r _
  have hsame := valuesOf_cons_same (keyed.name key) r members
  constructor
  · intro h
    have hvalues := h.settles key hkey
    rw [hsame, settles_cons_iff] at hvalues
    obtain ⟨hlast, hstands⟩ := hvalues
    refine ⟨fun hseen => ?_, keyed.view b key, hstands, fun k hk hseen => ?_, fun k hk => ?_,
      fun k hk => ?_⟩
    · have hnone := h.fresh key hkey hseen
      rw [hsame] at hnone
      cases hnone
    · by_cases hk' : k = key
      · rw [hk', hlast]
      · have hseen := (List.mem_cons.mp hseen).resolve_left (hk' ∘ @keyed.name_injective k key)
        exact hother hk' ▸ h.fresh k hk hseen
    · rw [Equiv.apply_symm_apply]
      by_cases hk' : k = key
      · subst hk'
        rw [hlast, Function.update_self]
        exact rfl
      · rw [Function.update_of_ne hk', ← hother hk']
        exact h.settles k hk
    · have hk' : k ≠ key := fun hsame => hk (hsame ▸ hkey)
      rw [Equiv.apply_symm_apply, Function.update_of_ne hk', h.others k hk]
  -- the name is seen now, so no later member has it and the value stands
  · rintro ⟨hseen, v, hstands, h⟩
    have hlast := h.fresh key hkey List.mem_cons_self
    have hv := h.settles key hkey
    rw [hlast, Equiv.apply_symm_apply, Function.update_self] at hv
    refine ⟨fun k hk hk' => ?_, fun k hk => ?_, fun k hk => ?_⟩
    · have hne : k ≠ key := by
        rintro rfl
        exact hseen hk'
      rw [hother hne]
      exact h.fresh k hk (List.mem_cons_of_mem _ hk')
    · by_cases hne : k = key
      · subst hne
        rw [hsame, settles_cons_iff]
        exact ⟨hlast, Eq.symm hv ▸ hstands⟩
      · have hset := h.settles k hk
        rw [Equiv.apply_symm_apply, Function.update_of_ne hne] at hset
        rw [hother hne]
        exact hset
    · have hne : k ≠ key := fun hsame => hk (hsame ▸ hkey)
      rw [h.others k hk, Equiv.apply_symm_apply, Function.update_of_ne hne]

theorem readMembers_eq_ok_iff (hother : ∀ member ∈ members, other member.2 = .ok ()) :
    readMembers fields other seen a (usable members) = .ok b ↔ keyed.Decoded seen a members b := by
  induction members generalizing seen a with
  | nil =>
    rw [decoded_nil_iff]
    exact Except.ok.injEq a b ▸ Iff.rfl
  | cons member rest ih =>
    obtain ⟨name, r⟩ := member
    obtain ⟨hr, hother⟩ := List.forall_mem_cons.mp hother
    have hcons : usable ((name, r) :: rest) = (.ok name, r) :: usable rest := rfl
    simp only [hcons, readMembers_cons_eq_ok_iff, Except.ok.injEq, exists_eq_left', ih hother]
    -- a member of a known name is read by its field, any other one is checked and left out
    by_cases hown : ∃ key ∈ keyed.own, keyed.name key = name
    · obtain ⟨key, hkey, rfl⟩ := hown
      obtain ⟨field, hfind, hread⟩ := keyed.find key hkey
      rw [decoded_cons_own_iff keyed hkey]
      simp only [hfind, reduceCtorEq, false_and, false_or, Option.some.injEq, exists_eq_left',
        hread]
      refine and_congr_right fun _ => ?_
      constructor
      · rintro ⟨_, ⟨v, hv, rfl⟩, h⟩
        exact ⟨v, hv, h⟩
      · rintro ⟨v, hv, h⟩
        exact ⟨_, ⟨v, hv, rfl⟩, h⟩
    · have hnone : fields.find? (·.name == name) = none := by
        refine find?_eq_none_of_notMem fun hmem => hown ?_
        rw [keyed.names] at hmem
        exact List.mem_map.mp hmem
      rw [decoded_cons_other_iff keyed fun key hkey hsame => hown ⟨key, hkey, hsame.symm⟩]
      simp [hnone, hr]

/-- A record all of whose keys have fields. -/
theorem readMembers_eq_ok_iff_of_all (hall : ∀ key, key ∈ keyed.own) :
    readMembers fields (fun _ => .ok ()) [] a (usable members) = .ok b ↔
      ∀ key, Settles (keyed.stands key) (keyed.view a key) (valuesOf (keyed.name key) members)
        (keyed.view b key) := by
  rw [keyed.readMembers_eq_ok_iff fun _ _ => rfl]
  constructor
  · intro h key
    exact h.settles key (hall key)
  · intro h
    exact ⟨fun _ _ hseen => absurd hseen List.not_mem_nil, fun key _ => h key,
      fun key hkey => absurd (hall key) hkey⟩

end KeyedFields

theorem usable_of_readMembers {α : Type} {fields : List (Field α)}
    {other : Reading → Except DecodeError Unit} {seen : List String} {a b : α}
    {members : List (MemberName × Reading)}
    (h : readMembers fields other seen a members = .ok b) : ∃ named, members = usable named := by
  induction members generalizing seen a with
  | nil => exact ⟨[], rfl⟩
  | cons member rest ih =>
    obtain ⟨memberName, r⟩ := member
    obtain ⟨name, rfl, hrest⟩ := readMembers_cons_eq_ok_iff.mp h
    have hnamed : ∃ named, rest = usable named := by
      rcases hrest with ⟨-, -, hrest⟩ | ⟨_, -, -, _, -, hrest⟩ <;> exact ih hrest
    obtain ⟨named, rfl⟩ := hnamed
    exact ⟨(name, r) :: named, rfl⟩

/-- What is decoded and put into a record. -/
theorem put_eq_ok_iff {α V : Type} {x : Except DecodeError V} {stands : V → Prop} {b : α}
    (put : V → α) (h : ∀ {v}, x = .ok v ↔ stands v) :
    (do return put (← x)) = (.ok b : Except DecodeError α) ↔ ∃ v, stands v ∧ b = put v := by
  rw [bind_eq_ok_iff]
  refine exists_congr fun v => and_congr h ?_
  exact ⟨fun hput => (Except.ok.inj hput).symm, fun hput => congrArg Except.ok hput.symm⟩

end CairoForge
