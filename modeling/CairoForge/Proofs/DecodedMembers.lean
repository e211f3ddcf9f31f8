import CairoForge.Proofs.OptionsRoundTrip

/-!
# Decoded members

What decoding a record takes: each member is read by the field of its name or handed on, and the
members behind it do not know which. What the simple values of fields are decoded from is stated
here once, so that nothing else has to open the decoders.

## Main definitions

* `Kept` — a member that can be kept.

## Main results

* `readMembers_cons_eq_ok_iff` — what one member does to the decoding of a record.
* `readMembers_insert` — a member of another name makes no difference, wherever it stands.
* `kept_of_readMembers` — members that are decoded can be kept.
* `Reading.string_eq_ok_iff`, `Reading.boolean_eq_ok_iff`, `Reading.byte_eq_ok_iff` — what simple
  values are decoded from.
-/

namespace CairoForge

/-! ## Steps that succeed -/

theorem bind_eq_ok_iff {ε α β : Type} {x : Except ε α} {f : α → Except ε β} {b : β} :
    (x >>= f) = .ok b ↔ ∃ a, x = .ok a ∧ f a = .ok b := by
  cases x with
  | error e => simp [bind, Except.bind]
  | ok a => simp [bind, Except.bind]

theorem MemberName.use_eq_ok_iff {name : MemberName} {text : String} :
    name.use = .ok text ↔ name = .ok text := by
  cases name <;> simp [MemberName.use, Except.mapError]

theorem endsWith_eq_ok_iff {stop? : Option Fault} : endsWith stop? = .ok () ↔ stop? = none := by
  cases stop? <;> simp [endsWith]

/-- A text is decoded when its value is and nothing stands behind it. -/
theorem Transcript.decode_eq_ok_iff {α : Type} {t : Transcript}
    {read : Reading → Except DecodeError α} {a : α} :
    t.decode read = .ok a ↔ read t.root = .ok a ∧ t.rest? = none := by
  constructor
  · intro h
    obtain ⟨b, hread, h⟩ := bind_eq_ok_iff.mp h
    obtain ⟨⟨⟩, hrest, h⟩ := bind_eq_ok_iff.mp h
    obtain rfl := Except.ok.inj h
    exact ⟨hread, endsWith_eq_ok_iff.mp hrest⟩
  · rintro ⟨hread, hrest⟩
    exact bind_eq_ok_iff.mpr
      ⟨a, hread, bind_eq_ok_iff.mpr ⟨(), endsWith_eq_ok_iff.mpr hrest, rfl⟩⟩

/-! ## Simple values -/

namespace Reading

variable {r : Reading}

theorem wrongType_ne_ok {α : Type} {wanted : Wanted} {a : α} : r.wrongType wanted ≠ .ok a := by
  intro h
  obtain ⟨found, -, herror⟩ := bind_eq_ok_iff.mp h
  cases herror

/-- A string is decoded from a text only. -/
theorem string_eq_ok_iff {s : String} : r.string = .ok s ↔ r = .text s := by
  cases r with
  | text t => simp [string]
  | _ => exact iff_of_false wrongType_ne_ok (by rintro ⟨⟩)

/-- A truth value is decoded from a truth value only. -/
theorem boolean_eq_ok_iff {b : Bool} : r.boolean = .ok b ↔ r = .bool b := by
  cases r with
  | bool c => simp [boolean]
  | _ => exact iff_of_false wrongType_ne_ok (by rintro ⟨⟩)

theorem found_eq_integer_iff {i : Int} :
    r.found = .ok (.integer i) ↔ r = .number (some (.integer i)) := by
  cases r with
  | number quantity? =>
    rcases quantity? with _ | (n | x) <;> simp [found]
  | _ => simp [found]

/-- An integer of eight bits is decoded from its number only. -/
theorem byte_eq_ok_iff {n : UInt8} : r.byte = .ok n ↔ r = .number (some (.integer n.toNat)) := by
  constructor
  · intro h
    obtain ⟨found, hfound, h⟩ := bind_eq_ok_iff.mp h
    cases found with
    | integer i =>
      dsimp only at h
      split at h
      · next hrange =>
        obtain rfl := Except.ok.inj h
        -- within the range of a byte nothing is cut off
        have hvalue : ((UInt8.ofNat i.toNat).toNat : Int) = i := by
          rw [UInt8.toNat_ofNat']
          omega
        rw [hvalue]
        exact found_eq_integer_iff.mp hfound
      · cases h
    | _ => cases h
  · rintro rfl
    exact byte_integer n

end Reading

/-! ## Members -/

/-- A member with a name that can be used and a value that can be kept. -/
def Kept (member : MemberName × Reading) : Prop :=
  (∃ name, member.1 = .ok name) ∧ member.2.keep 1 = .ok ()

section

variable {α : Type} {fields : List (Field α)} {other : Reading → Except DecodeError Unit}
  {seen : List String} {a b : α} {members : List (MemberName × Reading)}

/-- **One member of a record**: it has another name and is handed on, or it is read by the field of
its name, which has not come up before. -/
theorem readMembers_cons_eq_ok_iff {memberName : MemberName} {r : Reading} :
    readMembers fields other seen a ((memberName, r) :: members) = .ok b ↔
      ∃ name, memberName = .ok name ∧
        ((fields.find? (·.name == name) = none ∧ other r = .ok () ∧
            readMembers fields other seen a members = .ok b) ∨
          ∃ field, fields.find? (·.name == name) = some field ∧ name ∉ seen ∧
            ∃ next, field.read a r = .ok next ∧
              readMembers fields other (name :: seen) next members = .ok b) := by
  rw [readMembers, bind_eq_ok_iff]
  simp only [MemberName.use_eq_ok_iff]
  refine exists_congr fun name => and_congr_right fun _ => ?_
  cases fields.find? (·.name == name) with
  | none =>
    simp only [bind_eq_ok_iff, true_and, reduceCtorEq, false_and, exists_false, or_false]
    constructor
    · rintro ⟨⟨⟩, h⟩
      exact h
    · intro h
      exact ⟨(), h⟩
  | some field => by_cases hseen : name ∈ seen <;> simp [bind_eq_ok_iff, hseen]

/-- **A member of another name** makes no difference, wherever it stands. -/
theorem readMembers_insert {name : String} {r : Reading} (hname : name ∉ fields.map (·.name))
    (hother : other r = .ok ()) (before after : List (MemberName × Reading)) :
    readMembers fields other seen a (before ++ (.ok name, r) :: after) =
      readMembers fields other seen a (before ++ after) := by
  induction before generalizing seen a with
  | nil => exact readMembers_cons_other hname hother after
  | cons member rest ih =>
    obtain ⟨memberName, value⟩ := member
    simp only [List.cons_append, readMembers, ih]

/-- **Members that are decoded can be kept**, if those can that are handed on or read by a field. -/
theorem kept_of_readMembers (hother : ∀ r, other r = .ok () → r.keep 1 = .ok ())
    (hfields : ∀ field ∈ fields, ∀ a r b, field.read a r = .ok b → r.keep 1 = .ok ())
    (h : readMembers fields other seen a members = .ok b) : ∀ member ∈ members, Kept member := by
  induction members generalizing seen a with
  | nil => exact fun _ hnone => nomatch hnone
  | cons member rest ih =>
    obtain ⟨name, hname, hmember⟩ := readMembers_cons_eq_ok_iff.mp h
    rw [List.forall_mem_cons]
    rcases hmember with ⟨-, hkept, hrest⟩ | ⟨field, hfind, -, next, hread, hrest⟩
    · exact ⟨⟨⟨name, hname⟩, hother _ hkept⟩, ih hrest⟩
    · have hkept := hfields field (List.mem_of_find?_eq_some hfind) _ _ _ hread
      exact ⟨⟨⟨name, hname⟩, hkept⟩, ih hrest⟩

end

end CairoForge
