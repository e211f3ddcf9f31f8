import CairoForge.Proofs.NumberText
import CairoForge.Proofs.WrittenJson

/-!
# Distinct JSON values

The text of a JSON value ends where the value does, so what stands behind it can be told apart, and
two values of one text are the same. The first character tells of what kind a value is; a string
ends at the first quote without a backslash, a number before the first character that no number is
written with, and arrays and objects are compared part by part.

## Main definitions

* `Json.Finite` — every number inside is finite; others are written as nothing is.
* `Json.Kind` — what the first character tells.

## Main results

* `Json.quoted_append_inj` — a text in quotes and what stands behind it.
* `Json.write_append_inj` — a value and what stands behind it.
* `Json.eq_of_compact_eq`, `Json.eq_of_pretty_eq` — values of one text are the same.
-/

namespace CairoForge

namespace Json

/-! ## Strings -/

/-- The first character of an escaped text, and what stands behind it. -/
def readEscape : List Char → Option (Char × List Char)
  | '\\' :: 'u' :: _ :: _ :: high :: low :: rest => do
    let high ← TextScan.hexValue? high
    let low ← TextScan.hexValue? low
    return (Char.ofNat (16 * high + low), rest)
  | '\\' :: 'b' :: rest => some ('\x08', rest)
  | '\\' :: 'f' :: rest => some ('\x0c', rest)
  | '\\' :: 'n' :: rest => some ('\n', rest)
  | '\\' :: 'r' :: rest => some ('\r', rest)
  | '\\' :: 't' :: rest => some ('\t', rest)
  | '\\' :: c :: rest => some (c, rest)
  | c :: rest => some (c, rest)
  | [] => none

/-- A character is read from its escape. -/
theorem readEscape_escape (c : Char) (rest : List Char) :
    readEscape (escape c ++ rest) = some (c, rest) := by
  unfold escape
  split_ifs with hquote hbackslash hback hfeed hline hreturn htab hcontrol
  -- two characters, the second of which names the first
  iterate 7
    · subst c
      rfl
  -- the code in four digits
  · have hhigh := hexValue?_digitChar (c.toNat / 16 % 16) (Nat.mod_lt _ (by decide))
    have hlow := hexValue?_digitChar (c.toNat % 16) (Nat.mod_lt _ (by decide))
    have hvalue : 16 * (c.toNat / 16 % 16) + c.toNat % 16 = c.toNat := by omega
    simp only [hexByte, List.cons_append, List.nil_append, readEscape, hhigh, hlow,
      Option.bind_eq_bind, Option.bind_some, Option.pure_def, hvalue, Char.ofNat_toNat]
  -- the character itself, which is no backslash
  · rw [List.singleton_append]
    unfold readEscape
    split <;> simp_all

theorem escape_append_inj {c c' : Char} {rest rest' : List Char}
    (h : escape c ++ rest = escape c' ++ rest') : c = c' ∧ rest = rest' := by
  have hread := congrArg readEscape h
  rw [readEscape_escape, readEscape_escape] at hread
  exact Prod.mk.inj (Option.some.inj hread)

/-- No escape starts with a quote. -/
theorem escape_append_ne {c : Char} {rest rest' : List Char} :
    escape c ++ rest ≠ '"' :: rest' := by
  unfold escape
  split_ifs <;> simp_all [hexByte]

theorem flatMap_escape_append_inj {cs cs' rest rest' : List Char}
    (h : cs.flatMap escape ++ '"' :: rest = cs'.flatMap escape ++ '"' :: rest') :
    cs = cs' ∧ rest = rest' := by
  induction cs generalizing cs' with
  | nil =>
    cases cs' with
    | nil => exact ⟨rfl, (List.cons.inj h).2⟩
    | cons c cs' =>
      -- one text ends here, and the other would have to go on with a quote
      rw [List.flatMap_cons, List.append_assoc] at h
      exact absurd h.symm escape_append_ne
  | cons c cs ih =>
    cases cs' with
    | nil =>
      rw [List.flatMap_cons, List.append_assoc] at h
      exact absurd h escape_append_ne
    | cons c' cs' =>
      rw [List.flatMap_cons, List.flatMap_cons, List.append_assoc, List.append_assoc] at h
      obtain ⟨rfl, hlater⟩ := escape_append_inj h
      obtain ⟨rfl, rfl⟩ := ih hlater
      exact ⟨rfl, rfl⟩

/-- **A text in quotes** ends at the quote behind it. -/
theorem quoted_append_inj {s s' : String} {rest rest' : List Char}
    (h : quoted s ++ rest = quoted s' ++ rest') : s = s' ∧ rest = rest' := by
  simp only [quoted, List.cons_append, List.append_assoc, List.nil_append, List.cons.injEq,
    true_and] at h
  obtain ⟨htext, hrest⟩ := flatMap_escape_append_inj h
  exact ⟨String.toList_inj.mp htext, hrest⟩

/-! ## Numbers -/

/-- Nothing that a number is written with stands in front. -/
def EndsNumber (rest : List Char) : Prop :=
  ∀ c ∈ rest.head?, ¬ IsNumberChar c

/-- **A number** ends before the first character that no number is written with. -/
theorem number_append_inj {cs cs' rest rest' : List Char} (hcs : ∀ c ∈ cs, IsNumberChar c)
    (hcs' : ∀ c ∈ cs', IsNumberChar c) (hrest : EndsNumber rest) (hrest' : EndsNumber rest')
    (h : cs ++ rest = cs' ++ rest') : cs = cs' ∧ rest = rest' := by
  obtain ⟨htake, hdrop⟩ := takeWhile_dropWhile_append hcs hrest
  obtain ⟨htake', hdrop'⟩ := takeWhile_dropWhile_append hcs' hrest'
  rw [h] at htake hdrop
  exact ⟨htake.symm.trans htake', hdrop.symm.trans hdrop'⟩

/-! ## Values -/

mutual

/-- Every number inside a value is finite. -/
def Finite : Json → Prop
  | .number x => x.IsFinite
  | .array items => FiniteItems items
  | .object members => FiniteMembers members
  | _ => True

def FiniteItems : List Json → Prop
  | [] => True
  | item :: rest => Finite item ∧ FiniteItems rest

def FiniteMembers : List (String × Json) → Prop
  | [] => True
  | (_, value) :: rest => Finite value ∧ FiniteMembers rest

end

/-- What the first character of a value tells. -/
inductive Kind where
  | null
  | yes
  | no
  | number
  | text
  | array
  | object
  deriving DecidableEq

/-- The kind of value that a character starts. -/
def Kind.ofChar? (c : Char) : Option Kind :=
  if c = 'n' then some null
  else if c = 't' then some yes
  else if c = 'f' then some no
  else if c = '"' then some text
  else if c = '[' then some array
  else if c = '\x7b' then some object
  else if c = '-' ∨ c.isDigit = true then some number
  else none

/-- The kind of a value. -/
def kind : Json → Kind
  | .null => .null
  | .bool true => .yes
  | .bool false => .no
  | .integer _ => .number
  | .number _ => .number
  | .text _ => .text
  | .array _ => .array
  | .object _ => .object

theorem Kind.ofChar?_number {c : Char} (h : c = '-' ∨ c.isDigit = true) :
    ofChar? c = some number := by
  have hne : ∀ {d : Char}, d ≠ '-' → d.isDigit = false → c ≠ d := by
    rintro d hd hdigit rfl
    rcases h with rfl | h
    · exact hd rfl
    · rw [h] at hdigit
      cases hdigit
  rw [ofChar?, if_neg (hne (by decide) rfl), if_neg (hne (by decide) rfl),
    if_neg (hne (by decide) rfl), if_neg (hne (by decide) rfl), if_neg (hne (by decide) rfl),
    if_neg (hne (by decide) rfl), if_pos h]

variable {spacing : Spacing} {depth : Nat}

/-- The first character of a value tells its kind. -/
theorem exists_write_eq_cons (spacing : Spacing) (depth : Nat) {j : Json} (hj : j.Finite) :
    ∃ c rest, write spacing depth j = c :: rest ∧ Kind.ofChar? c = some j.kind := by
  cases j with
  | null => exact ⟨_, _, by rw [write]; rfl, rfl⟩
  | bool b => cases b <;> exact ⟨_, _, by rw [write]; rfl, rfl⟩
  | integer n =>
    obtain ⟨c, rest, hcs, hc⟩ := (isSigned_decimalText n).starts
    exact ⟨c, rest, by rw [write, hcs], Kind.ofChar?_number hc⟩
  | number x =>
    have hsigned : IsSigned (x.text numberStyle).toList := Binary64.isSigned_text hj
    obtain ⟨c, rest, hcs, hc⟩ := hsigned.starts
    exact ⟨c, rest, by rw [write, hcs], Kind.ofChar?_number hc⟩
  | text s => exact ⟨_, _, by rw [write, quoted]; rfl, rfl⟩
  | array items =>
    cases items with
    | nil => exact ⟨_, _, by rw [write], rfl⟩
    | cons first rest => exact ⟨_, _, by rw [write]; rfl, rfl⟩
  | object members =>
    cases members with
    | nil => exact ⟨_, _, by rw [write], rfl⟩
    | cons member rest => exact ⟨_, _, by rw [write]; rfl, rfl⟩

theorem kind_eq_of_write_append {j j' : Json} (hj : j.Finite) (hj' : j'.Finite)
    {rest rest' : List Char} (h : write spacing depth j ++ rest = write spacing depth j' ++ rest') :
    j.kind = j'.kind := by
  obtain ⟨c, _, hc, hkind⟩ := exists_write_eq_cons spacing depth hj
  obtain ⟨c', _, hc', hkind'⟩ := exists_write_eq_cons spacing depth hj'
  rw [hc, hc'] at h
  obtain rfl := (List.cons.inj h).1
  exact Option.some.inj (hkind.symm.trans hkind')

theorem eq_null_of_kind {j : Json} (h : j.kind = .null) : j = .null := by
  cases j with
  | null => rfl
  | bool b => cases b <;> cases h
  | _ => cases h

theorem eq_bool_of_kind {j : Json} {b : Bool} (h : j.kind = (bool b).kind) : j = .bool b := by
  cases j with
  | bool b' => cases b <;> cases b' <;> first | rfl | cases h
  | _ => cases b <;> cases h

theorem exists_eq_text_of_kind {j : Json} (h : j.kind = .text) : ∃ s, j = .text s := by
  cases j with
  | text s => exact ⟨s, rfl⟩
  | bool b => cases b <;> cases h
  | _ => cases h

theorem exists_eq_array_of_kind {j : Json} (h : j.kind = .array) : ∃ items, j = .array items := by
  cases j with
  | array items => exact ⟨items, rfl⟩
  | bool b => cases b <;> cases h
  | _ => cases h

theorem exists_eq_object_of_kind {j : Json} (h : j.kind = .object) :
    ∃ members, j = .object members := by
  cases j with
  | object members => exact ⟨members, rfl⟩
  | bool b => cases b <;> cases h
  | _ => cases h

/-- Integers and floating-point numbers are the values of the kind of numbers. -/
theorem exists_eq_of_kind_number {j : Json} (h : j.kind = .number) :
    (∃ n, j = .integer n) ∨ ∃ x, j = .number x := by
  cases j with
  | integer n => exact .inl ⟨n, rfl⟩
  | number x => exact .inr ⟨x, rfl⟩
  | bool b => cases b <;> cases h
  | _ => cases h

theorem isNumberChar_of_kind {j : Json} (hj : j.Finite) (h : j.kind = .number) :
    ∀ c ∈ write spacing depth j, IsNumberChar c := by
  obtain ⟨n, rfl⟩ | ⟨x, rfl⟩ := exists_eq_of_kind_number h
  · rw [write]
    exact (isSigned_decimalText n).chars
  · rw [write]
    exact (Binary64.isSigned_text hj).chars

/-- Numbers of one text are the same: no floating-point number is written as an integer is. -/
theorem eq_of_write_eq_of_number {j j' : Json} (hj : j.Finite) (hj' : j'.Finite)
    (hkind : j.kind = .number) (hkind' : j'.kind = .number)
    (h : write spacing depth j = write spacing depth j') : j = j' := by
  obtain ⟨n, rfl⟩ | ⟨x, rfl⟩ := exists_eq_of_kind_number hkind <;>
    obtain ⟨n', rfl⟩ | ⟨x', rfl⟩ := exists_eq_of_kind_number hkind' <;>
    rw [write, write, String.toList_inj] at h
  · rw [decimalText_injective h]
  · exact absurd h.symm (Binary64.text_ne_decimalText rfl hj' n)
  · exact absurd h (Binary64.text_ne_decimalText rfl hj n')
  · rw [Binary64.eq_of_text_eq hj hj' h]

theorem write_append_inj_of_number {j j' : Json} (hj : j.Finite) (hj' : j'.Finite)
    (hkind : j.kind = .number) (hkind' : j'.kind = .number) {rest rest' : List Char}
    (hrest : EndsNumber rest) (hrest' : EndsNumber rest')
    (h : write spacing depth j ++ rest = write spacing depth j' ++ rest') :
    j = j' ∧ rest = rest' := by
  obtain ⟨htext, hrests⟩ := number_append_inj (isNumberChar_of_kind hj hkind)
    (isNumberChar_of_kind hj' hkind') hrest hrest' h
  exact ⟨eq_of_write_eq_of_number hj hj' hkind hkind' htext, hrests⟩

/-! ## Arrays and objects -/

/-- What stands behind the items of an array or the members of an object: neither a comma nor
anything that a number could go on with. -/
def EndsParts (rest : List Char) : Prop :=
  ∀ c ∈ rest.head?, ¬ IsNumberChar c ∧ c ≠ ','

theorem EndsParts.endsNumber {rest : List Char} (h : EndsParts rest) : EndsNumber rest :=
  fun c hc => (h c hc).1

theorem isBlank_or_eq_of_head? {gap rest : List Char} (hgap : IsGap gap) {c d : Char}
    (hd : d ∈ (gap ++ c :: rest).head?) : Scan.isBlank d = true ∨ d = c := by
  cases gap with
  | nil => exact .inr (Option.some.inj hd).symm
  | cons first gap =>
    obtain rfl := Option.some.inj hd
    exact .inl (hgap first List.mem_cons_self)

theorem endsParts_of_bracket {gap : List Char} (hgap : IsGap gap) {bracket : Char}
    (hbracket : bracket = ']' ∨ bracket = '\x7d') (rest : List Char) :
    EndsParts (gap ++ bracket :: rest) := by
  intro c hc
  rcases isBlank_or_eq_of_head? hgap hc with hblank | rfl
  · have hcases : c = ' ' ∨ c = '\n' ∨ c = '\t' ∨ c = '\r' := by
      simpa [Scan.isBlank, or_assoc] using hblank
    rcases hcases with rfl | rfl | rfl | rfl <;> decide
  · rcases hbracket with rfl | rfl <;> decide

/-- No value starts with a bracket that ends an array or an object. -/
theorem gap_write_ne_bracket {gap : List Char} (hgap : IsGap gap) {bracket : Char}
    (hbracket : bracket = ']' ∨ bracket = '\x7d') {c : Char} (hc : Kind.ofChar? c ≠ none)
    (rest rest' : List Char) : bracket :: rest ≠ gap ++ c :: rest' := by
  intro h
  have hhead : bracket ∈ (gap ++ c :: rest').head? := by rw [← h]; rfl
  rcases isBlank_or_eq_of_head? hgap hhead with hblank | rfl
  · rcases hbracket with rfl | rfl <;> cases hblank
  · rcases hbracket with rfl | rfl <;> exact hc rfl

theorem endsNumber_writeItems {items : List Json} {rest : List Char} (hrest : EndsParts rest) :
    EndsNumber (writeItems spacing depth items ++ rest) := by
  cases items with
  | nil => simpa [writeItems] using hrest.endsNumber
  | cons item more =>
    rintro c hc
    obtain rfl : ',' = c := by simpa [writeItems] using hc
    decide

theorem endsNumber_writeMembers {members : List (String × Json)} {rest : List Char}
    (hrest : EndsParts rest) : EndsNumber (writeMembers spacing depth members ++ rest) := by
  cases members with
  | nil => simpa [writeMembers] using hrest.endsNumber
  | cons member more =>
    rintro c hc
    obtain rfl : ',' = c := by simpa [writeMembers] using hc
    decide

/-- An array is written like items behind others, but for the first character. -/
theorem write_array (first : Json) (more : List Json) (rest : List Char) :
    ',' :: (write spacing depth (.array (first :: more)) ++ rest).tail =
      writeItems spacing (depth + 1) (first :: more) ++
        (spacing.lineBreak depth ++ ']' :: rest) := by
  simp [write, writeItems]

theorem write_object (first : String × Json) (more : List (String × Json)) (rest : List Char) :
    ',' :: (write spacing depth (.object (first :: more)) ++ rest).tail =
      writeMembers spacing (depth + 1) (first :: more) ++
        (spacing.lineBreak depth ++ '\x7d' :: rest) := by
  simp [write, writeMembers]

theorem write_array_nil_ne (hspacing : spacing.IsBlank) {first : Json} (hfirst : first.Finite)
    (more : List Json) (rest rest' : List Char) :
    write spacing depth (.array []) ++ rest ≠
      write spacing depth (.array (first :: more)) ++ rest' := by
  obtain ⟨c, cs, hcs, hkind⟩ := exists_write_eq_cons spacing (depth + 1) hfirst
  intro h
  rw [write, write, hcs] at h
  simp only [List.cons_append, List.append_assoc, List.nil_append, List.cons.injEq, true_and] at h
  exact gap_write_ne_bracket (hspacing.lineBreak _) (.inl rfl) (by simp [hkind]) _ _ h

theorem write_object_nil_ne (hspacing : spacing.IsBlank) (first : String × Json)
    (more : List (String × Json)) (rest rest' : List Char) :
    write spacing depth (.object []) ++ rest ≠
      write spacing depth (.object (first :: more)) ++ rest' := by
  intro h
  rw [write, write, memberName, quoted] at h
  simp only [List.cons_append, List.append_assoc, List.nil_append, List.cons.injEq, true_and] at h
  exact gap_write_ne_bracket (c := '"') (hspacing.lineBreak _) (.inr rfl) (by decide) _ _ h

/-- Arrays of one text are written with the same items behind others. -/
theorem writeItems_eq_of_write_eq (hspacing : spacing.IsBlank) {items items' : List Json}
    (hitems : FiniteItems items) (hitems' : FiniteItems items') {rest rest' : List Char}
    (h : write spacing depth (.array items) ++ rest =
      write spacing depth (.array items') ++ rest') :
    writeItems spacing (depth + 1) items ++ (spacing.lineBreak depth ++ ']' :: rest) =
      writeItems spacing (depth + 1) items' ++ (spacing.lineBreak depth ++ ']' :: rest') := by
  cases items with
  | nil =>
    cases items' with
    | nil => rw [List.append_cancel_left h]
    | cons first' more' => exact absurd h (write_array_nil_ne hspacing hitems'.1 more' _ _)
  | cons first more =>
    cases items' with
    | nil => exact absurd h.symm (write_array_nil_ne hspacing hitems.1 more _ _)
    | cons first' more' =>
      have hparts := congrArg (fun cs => ',' :: cs.tail) h
      simp only [write_array] at hparts
      exact hparts

theorem writeMembers_eq_of_write_eq (hspacing : spacing.IsBlank)
    {members members' : List (String × Json)} {rest rest' : List Char}
    (h : write spacing depth (.object members) ++ rest =
      write spacing depth (.object members') ++ rest') :
    writeMembers spacing (depth + 1) members ++ (spacing.lineBreak depth ++ '\x7d' :: rest) =
      writeMembers spacing (depth + 1) members' ++
        (spacing.lineBreak depth ++ '\x7d' :: rest') := by
  cases members with
  | nil =>
    cases members' with
    | nil => rw [List.append_cancel_left h]
    | cons first' more' => exact absurd h (write_object_nil_ne hspacing first' more' _ _)
  | cons first more =>
    cases members' with
    | nil => exact absurd h.symm (write_object_nil_ne hspacing first more _ _)
    | cons first' more' =>
      have hparts := congrArg (fun cs => ',' :: cs.tail) h
      simp only [write_object] at hparts
      exact hparts

-- the induction follows `write`; items and members end at a bracket, which ends numbers too
mutual

/-- **A value** and what stands behind it. -/
theorem write_append_inj (hspacing : spacing.IsBlank) (j : Json) {j' : Json} (hj : j.Finite)
    (hj' : j'.Finite) {depth : Nat} {rest rest' : List Char} (hrest : EndsNumber rest)
    (hrest' : EndsNumber rest')
    (h : write spacing depth j ++ rest = write spacing depth j' ++ rest') :
    j = j' ∧ rest = rest' := by
  -- both are of one kind, which names the constructor of the other value
  have hkind := (kind_eq_of_write_append hj hj' h).symm
  cases j with
  | null =>
    obtain rfl := eq_null_of_kind hkind
    exact ⟨rfl, List.append_cancel_left h⟩
  | bool b =>
    obtain rfl := eq_bool_of_kind hkind
    exact ⟨rfl, List.append_cancel_left h⟩
  | integer n => exact write_append_inj_of_number hj hj' rfl hkind hrest hrest' h
  | number x => exact write_append_inj_of_number hj hj' rfl hkind hrest hrest' h
  | text s =>
    obtain ⟨s', rfl⟩ := exists_eq_text_of_kind hkind
    rw [write, write] at h
    obtain ⟨rfl, hrests⟩ := quoted_append_inj h
    exact ⟨rfl, hrests⟩
  | array items =>
    obtain ⟨items', rfl⟩ := exists_eq_array_of_kind hkind
    have hparts := writeItems_eq_of_write_eq hspacing hj hj' h
    have hbracket := endsParts_of_bracket (hspacing.lineBreak depth) (.inl rfl)
    obtain ⟨rfl, hrests⟩ := writeItems_append_inj hspacing items hj hj' (hbracket rest)
      (hbracket rest') hparts
    exact ⟨rfl, (List.cons.inj (List.append_cancel_left hrests)).2⟩
  | object members =>
    obtain ⟨members', rfl⟩ := exists_eq_object_of_kind hkind
    have hparts := writeMembers_eq_of_write_eq hspacing h
    have hbracket := endsParts_of_bracket (hspacing.lineBreak depth) (.inr rfl)
    obtain ⟨rfl, hrests⟩ := writeMembers_append_inj hspacing members hj hj' (hbracket rest)
      (hbracket rest') hparts
    exact ⟨rfl, (List.cons.inj (List.append_cancel_left hrests)).2⟩

/-- Items behind others. -/
theorem writeItems_append_inj (hspacing : spacing.IsBlank) (items : List Json)
    {items' : List Json} (hitems : FiniteItems items) (hitems' : FiniteItems items') {depth : Nat}
    {rest rest' : List Char} (hrest : EndsParts rest) (hrest' : EndsParts rest')
    (h : writeItems spacing depth items ++ rest = writeItems spacing depth items' ++ rest') :
    items = items' ∧ rest = rest' := by
  cases items with
  | nil =>
    cases items' with
    | nil => exact ⟨rfl, by simpa [writeItems] using h⟩
    | cons item' more' =>
      -- items go on with a comma, and what stands behind them does not start with one
      simp only [writeItems, List.nil_append, List.cons_append] at h
      exact absurd rfl (hrest _ (by rw [h]; rfl)).2
  | cons item more =>
    cases items' with
    | nil =>
      simp only [writeItems, List.nil_append, List.cons_append] at h
      exact absurd rfl (hrest' _ (by rw [← h]; rfl)).2
    | cons item' more' =>
      rw [writeItems, writeItems] at h
      simp only [List.cons_append, List.append_assoc, List.cons.injEq, true_and] at h
      obtain ⟨rfl, hmore⟩ := write_append_inj hspacing item hitems.1 hitems'.1
        (endsNumber_writeItems hrest) (endsNumber_writeItems hrest') (List.append_cancel_left h)
      obtain ⟨rfl, hrests⟩ := writeItems_append_inj hspacing more hitems.2 hitems'.2 hrest hrest'
        hmore
      exact ⟨rfl, hrests⟩

/-- Members behind others. -/
theorem writeMembers_append_inj (hspacing : spacing.IsBlank) (members : List (String × Json))
    {members' : List (String × Json)} (hmembers : FiniteMembers members)
    (hmembers' : FiniteMembers members') {depth : Nat} {rest rest' : List Char}
    (hrest : EndsParts rest) (hrest' : EndsParts rest')
    (h : writeMembers spacing depth members ++ rest =
      writeMembers spacing depth members' ++ rest') :
    members = members' ∧ rest = rest' := by
  cases members with
  | nil =>
    cases members' with
    | nil => exact ⟨rfl, by simpa [writeMembers] using h⟩
    | cons member' more' =>
      simp only [writeMembers, List.nil_append, List.cons_append] at h
      exact absurd rfl (hrest _ (by rw [h]; rfl)).2
  | cons member more =>
    cases members' with
    | nil =>
      simp only [writeMembers, List.nil_append, List.cons_append] at h
      exact absurd rfl (hrest' _ (by rw [← h]; rfl)).2
    | cons member' more' =>
      -- the name, then the value, then the other members
      obtain ⟨name, value⟩ := member
      obtain ⟨name', value'⟩ := member'
      rw [writeMembers, writeMembers, memberName, memberName] at h
      simp only [List.cons_append, List.append_assoc, List.cons.injEq, true_and] at h
      obtain ⟨rfl, hvalue⟩ := quoted_append_inj (List.append_cancel_left h)
      simp only [List.cons.injEq, true_and] at hvalue
      obtain ⟨rfl, hmore⟩ := write_append_inj hspacing value hmembers.1 hmembers'.1
        (endsNumber_writeMembers hrest) (endsNumber_writeMembers hrest')
        (List.append_cancel_left hvalue)
      obtain ⟨rfl, hrests⟩ := writeMembers_append_inj hspacing more hmembers.2 hmembers'.2 hrest
        hrest' hmore
      exact ⟨rfl, hrests⟩

end

/-- **Values of one text are the same**, in any spacing. -/
theorem eq_of_write_eq (hspacing : spacing.IsBlank) {j j' : Json} (hj : j.Finite)
    (hj' : j'.Finite) (h : write spacing depth j = write spacing depth j') : j = j' := by
  have hnothing : EndsNumber [] := nofun
  have happended : write spacing depth j ++ [] = write spacing depth j' ++ [] := by rw [h]
  exact (write_append_inj hspacing j hj hj' hnothing hnothing happended).1

theorem eq_of_compact_eq {j j' : Json} (hj : j.Finite) (hj' : j'.Finite)
    (h : j.compact = j'.compact) : j = j' :=
  eq_of_write_eq Spacing.isBlank_none hj hj' (String.ofList_injective h)

theorem eq_of_pretty_eq {j j' : Json} (hj : j.Finite) (hj' : j'.Finite)
    (h : j.pretty = j'.pretty) : j = j' :=
  eq_of_write_eq Spacing.isBlank_lines hj hj' (String.ofList_injective h)

end Json

end CairoForge
