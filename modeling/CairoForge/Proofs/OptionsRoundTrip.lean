import CairoForge.Proofs.WrittenJson
import CairoForge.Request

/-!
# Options and requests in JSON

Options are written with all their members and read from any, starting from the defaults: the
members of a token as they come, all others from what was kept of them. What was written is read
back all the same, since every member replaces its default and is looked for under its own name.

## Main definitions

* `writtenMembers` — the members of a record, one for each field.
* `TokenOptions.readings`, `SharedOptions.readings` — what is read of the options.

## Main results

* `readMembers_written`, `readMembers_others` — a record is read from its own members, and other
  ones are passed over.
* `TokenOptions.decode_reading` — options are decoded from what is read of them.
* `Request.ofText_compact`, `Request.ofText_pretty` — a request is decoded from its text.
* `TokenOptions.decode_ofText` — options and requests are decoded from their text.
-/

namespace CairoForge

/-! ## Records -/

section Records

variable {α : Type} {fields : List (Field α)} {other : Reading → Except DecodeError Unit}
  {seen : List String} {a : α}

/-- The members of a record: each field with what is read of its value. -/
def writtenMembers (fields : List (Field α)) (values : List Reading) :
    List (MemberName × Reading) :=
  List.zipWith (fun field r => (.ok field.name, r)) fields values

theorem find?_eq_none_of_notMem {name : String} (hname : name ∉ fields.map (·.name)) :
    fields.find? (·.name == name) = none := by
  refine List.find?_eq_none.mpr fun field hfield hsame => hname ?_
  exact List.mem_map.mpr ⟨field, hfield, by simpa using hsame⟩

/-- A member of another name changes nothing. -/
theorem readMembers_cons_other {name : String} {r : Reading}
    (hname : name ∉ fields.map (·.name)) (hother : other r = .ok ())
    (rest : List (MemberName × Reading)) :
    readMembers fields other seen a ((.ok name, r) :: rest) =
      readMembers fields other seen a rest := by
  simp only [readMembers, MemberName.use, Except.mapError, bind, Except.bind,
    find?_eq_none_of_notMem hname, hother]

/-- A member of a field that has not come up yet changes what the field says. -/
theorem readMembers_cons_field {field : Field α} {r : Reading}
    (hfind : fields.find? (·.name == field.name) = some field) (hseen : field.name ∉ seen)
    (rest : List (MemberName × Reading)) :
    readMembers fields other seen a ((.ok field.name, r) :: rest) =
      (field.read a r).bind fun a => readMembers fields other (field.name :: seen) a rest := by
  simp only [readMembers, MemberName.use, Except.mapError, bind, Except.bind, hfind, hseen,
    if_false]

/-- **Members of other names** are passed over. -/
theorem readMembers_others {β : Type} {others : List (Field β)} {values : List Reading}
    (hnames : ∀ field ∈ others, field.name ∉ fields.map (·.name))
    (hother : ∀ r ∈ values, other r = .ok ()) (rest : List (MemberName × Reading)) :
    readMembers fields other seen a (writtenMembers others values ++ rest) =
      readMembers fields other seen a rest := by
  induction others generalizing values with
  | nil => rfl
  | cons field others ih =>
    cases values with
    | nil => rfl
    | cons r values =>
      obtain ⟨hname, hnames⟩ := List.forall_mem_cons.mp hnames
      obtain ⟨hr, hother⟩ := List.forall_mem_cons.mp hother
      exact (readMembers_cons_other hname hr _).trans (ih hnames hother)

/-- **The members of the fields** are read one after the other. -/
theorem readMembers_written {first later : List (Field α)}
    (hnodup : ((first ++ later).map (·.name)).Nodup) {values : List Reading}
    (hlength : later.length = values.length) (rest : List (MemberName × Reading)) :
    readMembers (first ++ later) other (first.map (·.name)).reverse a
        (writtenMembers later values ++ rest) =
      (readItems a later values).bind fun a =>
        readMembers (first ++ later) other ((first ++ later).map (·.name)).reverse a rest := by
  induction later generalizing first values a with
  | nil =>
    obtain rfl := List.eq_nil_of_length_eq_zero hlength.symm
    rw [List.append_nil]
    rfl
  | cons field later ih =>
    cases values with
    | nil => cases hlength
    | cons r values =>
      have hsplit : first ++ field :: later = (first ++ [field]) ++ later := by simp
      -- the fields before this one have other names
      have hnew : field.name ∉ first.map (·.name) := by
        rw [List.map_append, List.map_cons] at hnodup
        have hapart := (List.nodup_append.mp hnodup).2.2
        exact fun hmem => hapart _ hmem _ List.mem_cons_self rfl
      have hfind : (first ++ field :: later).find? (·.name == field.name) = some field := by
        rw [List.find?_append, find?_eq_none_of_notMem hnew, Option.none_or]
        exact List.find?_cons_of_pos (beq_self_eq_true field.name)
      have hseen : field.name ∉ (first.map (·.name)).reverse := by simpa using hnew
      refine (readMembers_cons_field hfind hseen (writtenMembers later values ++ rest)).trans ?_
      rw [readItems]
      cases field.read a r with
      | error e => rfl
      | ok next =>
        have hlater := @ih next (first ++ [field]) (hsplit ▸ hnodup) values (Nat.succ.inj hlength)
        rw [← hsplit, List.map_append, List.map_singleton, List.reverse_append] at hlater
        exact hlater

theorem mem_writtenMembers {values : List Reading} {member : MemberName × Reading}
    (h : member ∈ writtenMembers fields values) :
    ∃ field ∈ fields, ∃ r ∈ values, member = (.ok field.name, r) := by
  induction fields generalizing values with
  | nil => cases h
  | cons field rest ih =>
    cases values with
    | nil => cases h
    | cons r values =>
      rcases List.mem_cons.mp h with rfl | h
      · exact ⟨field, List.mem_cons_self, r, List.mem_cons_self, rfl⟩
      · obtain ⟨field, hfield, r, hr, rfl⟩ := ih h
        exact ⟨field, List.mem_cons_of_mem _ hfield, r, List.mem_cons_of_mem _ hr, rfl⟩

end Records

/-! ## Options -/

theorem Json.fitsWord_byte (n : UInt8) : fitsWord n.toNat = true := by
  have hlt := n.toNat_lt
  have hword : Numeral.wordLimit = 0x10000000000000000 := rfl
  have hsigned : Numeral.signedLimit = 0x8000000000000000 := rfl
  rw [fitsWord, hword, hsigned, Bool.and_eq_true, decide_eq_true_iff, decide_eq_true_iff]
  omega

/-- An integer of eight bits is read back. -/
theorem Reading.byte_integer (n : UInt8) :
    Reading.byte (.number (some (.integer n.toNat))) = .ok n := by
  have hrange : (0 : Int) ≤ n.toNat ∧ (n.toNat : Int) < 256 := by
    have hlt := n.toNat_lt
    omega
  simp only [Reading.byte, Reading.found, bind, Except.bind, hrange, and_self, if_true,
    Int.toNat_natCast, UInt8.ofNat_toNat]

namespace SharedOptions

/-- What is read of the values of the shared options. -/
def readings (o : SharedOptions) : List Reading :=
  [.text o.access.name, .bool o.upgradeable,
    .object (writtenMembers Metadata.form.fields [.text o.info.securityContact,
      .text o.info.license]) none]

/-- What is read of the values can be kept. -/
theorem keep_readings (o : SharedOptions) : ∀ r ∈ o.readings, Reading.keep 1 r = .ok () := by
  intro r hr
  simp only [readings, List.mem_cons, List.not_mem_nil, or_false] at hr
  rcases hr with rfl | rfl | rfl <;> rfl

theorem readItems_readings (o : SharedOptions) :
    readItems {} (form .kept).fields o.readings = .ok o := by
  obtain ⟨access, upgradeable, contact, license⟩ := o
  cases access <;> rfl

end SharedOptions

namespace TokenOptions

/-- What is read of the values of the members that only a token has. -/
def readings (o : TokenOptions) : List Reading :=
  [.text o.name, .text o.symbol, .number (some (.integer o.decimals.toNat)), .bool o.burnable,
    .bool o.snapshots, .bool o.pausable, .bool o.mintable, .bool o.permit, .bool o.votes,
    .bool o.flashmint]

/-- What is read of the values can be kept. -/
theorem keep_readings (o : TokenOptions) : ∀ r ∈ o.readings, Reading.keep 1 r = .ok () := by
  intro r hr
  simp only [readings, List.mem_cons, List.not_mem_nil, or_false] at hr
  rcases hr with rfl | rfl | rfl | rfl | rfl | rfl | rfl | rfl | rfl | rfl <;> rfl

theorem readItems_readings (o : TokenOptions) :
    readItems {} fields o.readings = .ok { o with shared := {} } := by
  simp only [fields, readings, readItems, Reading.string, Reading.byte_integer, Reading.boolean]
  rfl

/-- The members of the options as they are read. -/
def memberReadings (o : TokenOptions) : List (MemberName × Reading) :=
  writtenMembers fields o.readings ++
    writtenMembers (SharedOptions.form .kept).fields o.shared.readings

theorem memberReadings?_members (o : TokenOptions) :
    Json.memberReadings? o.members = some o.memberReadings := by
  have hfits : Json.fitsWord o.decimals.toNat = true := Json.fitsWord_byte o.decimals
  simp only [members, SharedOptions.members, AccessMode.json, Metadata.json, List.cons_append,
    List.nil_append, Json.memberReadings?, Json.reading?, hfits, if_true]
  rfl

theorem reading?_json (o : TokenOptions) :
    o.json.reading? = some (.object o.memberReadings none) := by
  rw [json, Json.reading?, memberReadings?_members]
  rfl

/-- The members of a token are decoded as they come, and the shared ones kept. -/
theorem readMembers_memberReadings (o : TokenOptions) :
    readMembers fields (Reading.keep 1) [] {} o.memberReadings = .ok { o with shared := {} } := by
  have hown := @readMembers_written _ (Reading.keep 1) {} [] fields (by decide) o.readings rfl
    (writtenMembers (SharedOptions.form .kept).fields o.shared.readings ++ [])
  have hnames : ∀ field ∈ (SharedOptions.form .kept).fields,
      field.name ∉ fields.map (·.name) := by decide
  -- no field of a token has the name of a shared one, so those are only kept
  rw [memberReadings, ← List.append_nil (writtenMembers _ o.shared.readings)]
  refine hown.trans ?_
  rw [readItems_readings]
  exact readMembers_others hnames o.shared.keep_readings []

/-- Of what was kept the shared options are decoded, and the members of a token passed over. -/
theorem readMembers_shared (o : TokenOptions) :
    readMembers (SharedOptions.form .kept).fields (fun _ => .ok ()) [] {} o.memberReadings =
      .ok o.shared := by
  have hnames : ∀ field ∈ fields, field.name ∉ (SharedOptions.form .kept).fields.map (·.name) := by
    decide
  have hown := @readMembers_written _ (fun _ => .ok ()) {} [] (SharedOptions.form .kept).fields
    (by decide) o.shared.readings rfl []
  refine (readMembers_others hnames (fun _ _ => rfl) _).trans ?_
  rw [List.append_nil] at hown
  refine hown.trans ?_
  rw [SharedOptions.readItems_readings]
  rfl

/-- **Options are decoded from what is read of them.** -/
theorem ofMembers_memberReadings (o : TokenOptions) : ofMembers o.memberReadings none = .ok o := by
  rw [ofMembers, readMembers_memberReadings, readMembers_shared]
  rfl

end TokenOptions

/-! ## Requests -/

namespace Request

/-- Members of other names than that of the kind are kept as they are. -/
theorem splitKind_of_kept {members : List (MemberName × Reading)}
    (h : ∀ member ∈ members, ∃ name, member.1 = .ok name ∧ name ≠ kindKey ∧
      member.2.keep 1 = .ok ()) (kind? : Option Kind) :
    splitKind kind? members = .ok (kind?, members) := by
  induction members with
  | nil => rfl
  | cons member rest ih =>
    obtain ⟨hmember, hrest⟩ := List.forall_mem_cons.mp h
    obtain ⟨name, r⟩ := member
    obtain ⟨name, rfl, hname, hkeep⟩ := hmember
    simp only [splitKind, MemberName.use, Except.mapError, bind, Except.bind, hname, if_false,
      hkeep, ih hrest, pure, Except.pure]

/-- The members of a token can be kept, and none says of what kind the contract is to be. -/
theorem keep_memberReadings (o : TokenOptions) :
    ∀ member ∈ o.memberReadings, ∃ name, member.1 = .ok name ∧ name ≠ kindKey ∧
      member.2.keep 1 = .ok () := by
  have htoken : ∀ field ∈ TokenOptions.fields, field.name ≠ kindKey := by decide
  have hshared : ∀ field ∈ (SharedOptions.form .kept).fields, field.name ≠ kindKey := by decide
  intro member hmember
  rcases List.mem_append.mp hmember with hmember | hmember
  · obtain ⟨field, hfield, r, hr, rfl⟩ := mem_writtenMembers hmember
    exact ⟨field.name, rfl, htoken field hfield, o.keep_readings r hr⟩
  · obtain ⟨field, hfield, r, hr, rfl⟩ := mem_writtenMembers hmember
    exact ⟨field.name, rfl, hshared field hfield, o.shared.keep_readings r hr⟩

theorem reading?_json (o : TokenOptions) :
    (token o).json.reading? =
      some (.object ((.ok kindKey, .text Kind.erc20.name) :: o.memberReadings) none) := by
  rw [json, Json.reading?, Json.memberReadings?, o.memberReadings?_members]
  rfl

/-- **A request is decoded from what is read of it.** -/
theorem decode_reading (o : TokenOptions) :
    decode (.object ((.ok kindKey, .text Kind.erc20.name) :: o.memberReadings) none) =
      .ok (token o) := by
  have hsplit : splitKind none ((.ok kindKey, .text Kind.erc20.name) :: o.memberReadings) =
      .ok (some .erc20, o.memberReadings) :=
    splitKind_of_kept (keep_memberReadings o) (some .erc20)
  simp only [decode, hsplit, bind, Except.bind, endsWith, ofMembers, o.ofMembers_memberReadings,
    Except.map, Except.mapError]

theorem ofText_compact (rounding : Rounding) (o : TokenOptions) :
    ofText rounding (token o).json.compact = .ok (token o) := by
  rw [ofText, Transcript.ofText_compact rounding (reading?_json o), Transcript.decode,
    decode_reading]
  rfl

theorem ofText_pretty (rounding : Rounding) (o : TokenOptions) :
    ofText rounding (token o).json.pretty = .ok (token o) := by
  rw [ofText, Transcript.ofText_pretty rounding (reading?_json o), Transcript.decode,
    decode_reading]
  rfl

end Request

/-- **Options round-trip through JSON.** Whatever the options of a token are, they are decoded from
their own text, and from the text of the request for such a token the request is decoded; be the
text compact or spread over lines, and its numbers rounded once or step by step. -/
theorem TokenOptions.decode_ofText (rounding : Rounding) (o : TokenOptions) :
    (Transcript.ofText rounding o.json.compact).decode decode = .ok o ∧
      (Transcript.ofText rounding o.json.pretty).decode decode = .ok o ∧
      Request.ofText rounding (Request.token o).json.compact = .ok (.token o) ∧
      Request.ofText rounding (Request.token o).json.pretty = .ok (.token o) := by
  have hoptions : decode (.object o.memberReadings none) = .ok o := o.ofMembers_memberReadings
  refine ⟨?_, ?_, Request.ofText_compact rounding o, Request.ofText_pretty rounding o⟩
  · rw [Transcript.ofText_compact rounding o.reading?_json, Transcript.decode, hoptions]
    rfl
  · rw [Transcript.ofText_pretty rounding o.reading?_json, Transcript.decode, hoptions]
    rfl

end CairoForge
