import CairoForge.Proofs.FreeText

/-!
# Refused options

Options of a token are refused for what is in them and for nothing else. The three fields that can
be at fault are judged one by one, and once none is, neither the assembly of the contract nor the
printing of its source is refused any more.

## Main definitions

* `HasStart`, `IsShortString` — what names and symbols are made of.
* `TokenOptions.IsAcceptable` — options without a fault.
* `TokenOptions.faults` — the fields at fault with their messages.

## Main results

* `TokenOptions.entries_problems` — the recorded problems are the faults of the options.
* `TokenOptions.validate_eq_ok_iff_isAcceptable` — acceptable options are the valid ones.
* `TokenOptions.refusals` — options are refused for their faults, and for nothing else.
-/

namespace CairoForge

/-! ## Texts -/

/-- A text with a character that can start an identifier. -/
def HasStart (text : String) : Prop :=
  ∃ c ∈ text.toList, StartsIdentifier c

instance : DecidablePred HasStart := fun text =>
  List.decidableBEx StartsIdentifier text.toList

/-- ASCII without a single quote. -/
def IsUnquotedAscii (text : String) : Prop :=
  ∀ c ∈ text.toList, c.toNat < 128 ∧ c ≠ '\''

instance : DecidablePred IsUnquotedAscii := fun text =>
  List.decidableBAll (fun c : Char => c.toNat < 128 ∧ c ≠ '\'') text.toList

/-- A text that can stand between single quotes. -/
def IsShortString (text : String) : Prop :=
  IsUnquotedAscii text ∧ text.utf8ByteSize ≤ 31

instance : DecidablePred IsShortString := fun _ =>
  inferInstanceAs (Decidable (_ ∧ _))

/-- A text has an identifier when something in it can start one. -/
theorem identifier_isEmpty_eq_false_iff {text : String} {capitalize : Bool} :
    (identifier text capitalize).isEmpty = false ↔ HasStart text := by
  rw [← Bool.not_eq_true, identifier_isEmpty_iff, HasStart]
  simp only [← canStart_iff]
  push Not
  simp only [ne_eq, Bool.not_eq_false]

/-- What is wrong with a text that cannot stand between single quotes. -/
def quotedFault (text : String) : String :=
  if IsUnquotedAscii text then "Must be at most 31 characters"
  else "Must be ASCII without single quotes"

/-- **A text is at fault** just when it cannot stand between single quotes. -/
theorem shortStringProblem?_eq (text : String) :
    shortStringProblem? text = if IsShortString text then none else some (quotedFault text) := by
  have hany : (text.toList.any fun c => 128 ≤ c.toNat || c == '\'') = true ↔
      ¬ IsUnquotedAscii text := by
    simp only [List.any_eq_true, Bool.or_eq_true, decide_eq_true_eq, beq_iff_eq, IsUnquotedAscii]
    push Not
    refine exists_congr fun c => and_congr_right fun _ => ?_
    rw [← Nat.not_lt, imp_iff_not_or]
  have hlimit : maxShortString = 31 := rfl
  by_cases hascii : IsUnquotedAscii text
  · rw [shortStringProblem?, if_neg (mt hany.mp (not_not_intro hascii)), quotedFault,
      if_pos hascii, hlimit]
    by_cases hsize : text.utf8ByteSize ≤ 31
    · rw [if_neg (Nat.not_lt.mpr hsize), if_pos ⟨hascii, hsize⟩]
    · rw [if_pos (Nat.lt_of_not_le hsize), if_neg fun hshort => hsize hshort.2]
      decide
  · rw [shortStringProblem?, if_pos (hany.mpr hascii), quotedFault, if_neg hascii,
      if_neg fun hshort => hascii hshort.1]

namespace TokenOptions

/-! ## Faults -/

/-- A name that can be printed and has an identifier. -/
def IsName (name : String) : Prop :=
  HasStart name ∧ IsShortString name

instance : DecidablePred IsName := fun _ =>
  inferInstanceAs (Decidable (_ ∧ _))

/-- A symbol that can be printed. -/
def IsSymbol (symbol : String) : Prop :=
  symbol ≠ "" ∧ IsShortString symbol

instance : DecidablePred IsSymbol := fun _ =>
  inferInstanceAs (Decidable (_ ∧ _))

/-- **Acceptable options**: name and symbol can be printed, and votes come with permits. -/
structure IsAcceptable (o : TokenOptions) : Prop where
  name : IsName o.name
  symbol : IsSymbol o.symbol
  votes : o.votes = true → o.permit = true

/-- What is wrong with a name that is none. -/
def nameFault (name : String) : String :=
  if HasStart name then quotedFault name else "Not a valid identifier"

/-- What is wrong with a symbol that is none. -/
def symbolFault (symbol : String) : String :=
  if symbol = "" then "Required" else quotedFault symbol

/-- **The fields at fault**, each with a message about this field alone. -/
def faults (o : TokenOptions) : List (String × String) :=
  (if IsName o.name then [] else [("name", nameFault o.name)]) ++
    (if IsSymbol o.symbol then [] else [("symbol", symbolFault o.symbol)]) ++
    (if o.votes = true → o.permit = true then [] else [("votes", "Requires permit")])

theorem nameProblem?_eq (o : TokenOptions) :
    o.nameProblem? = if IsName o.name then none else some (nameFault o.name) := by
  rw [nameProblem?, nameFault, shortStringProblem?_eq]
  by_cases hstart : HasStart o.name
  · rw [identifier_isEmpty_eq_false_iff.mpr hstart, if_neg Bool.false_ne_true, if_pos hstart]
    exact if_congr (and_iff_right hstart).symm rfl rfl
  · have hempty : (identifier o.name true).isEmpty = true := by
      rwa [← Bool.not_eq_false, identifier_isEmpty_eq_false_iff]
    rw [if_pos hempty, if_neg hstart, if_neg fun hname => hstart hname.1]

theorem symbolProblem?_eq (o : TokenOptions) :
    o.symbolProblem? = if IsSymbol o.symbol then none else some (symbolFault o.symbol) := by
  rw [symbolProblem?, symbolFault, shortStringProblem?_eq]
  by_cases hempty : o.symbol = ""
  · rw [if_pos (String.isEmpty_iff.mpr hempty), if_pos hempty,
      if_neg fun hsymbol => hsymbol.1 hempty]
  · rw [if_neg (mt String.isEmpty_iff.mp hempty), if_neg hempty]
    exact if_congr (and_iff_right hempty).symm rfl rfl

theorem votesProblem?_eq (o : TokenOptions) :
    o.votesProblem? =
      if o.votes = true → o.permit = true then none else some "Requires permit" := by
  rw [votesProblem?]
  cases o.votes <;> cases o.permit <;> rfl

/-- **The recorded problems** are the faults, in the order of the field names. -/
theorem entries_problems (o : TokenOptions) : o.problems.entries = o.faults := by
  have hfirst : "name" < "symbol" := by decide
  have hlast : "symbol" < "votes" := by decide
  have hsorted : ∀ name? : Option String,
      ∀ entry ∈ (FieldMessages.empty.set? "name" name?).entries, entry.1 < "symbol" := by
    intro name? entry hentry
    cases name? with
    | none => cases hentry
    | some message =>
      obtain rfl := List.mem_singleton.mp hentry
      exact hfirst
  -- names come in rising order, so each message is recorded behind those before it
  have hname := FieldMessages.empty.entries_set?_of_last "name"
    (fun _ hnone => nomatch hnone) o.nameProblem?
  have hsymbol := (FieldMessages.empty.set? "name" o.nameProblem?).entries_set?_of_last "symbol"
    (hsorted _) o.symbolProblem?
  have hvotes := ((FieldMessages.empty.set? "name" o.nameProblem?).set? "symbol"
    o.symbolProblem?).entries_set?_of_last "votes" ?_ o.votesProblem?
  · have hempty : FieldMessages.empty.entries = [] := rfl
    rw [problems, hvotes, hsymbol, hname, hempty, List.nil_append, nameProblem?_eq,
      symbolProblem?_eq, votesProblem?_eq, faults]
    simp only [apply_ite Option.toList, apply_ite (List.map _), Option.toList_none,
      Option.toList_some, List.map_nil, List.map_cons]
  · rw [hsymbol]
    intro entry hentry
    rcases List.mem_append.mp hentry with hold | hnew
    · exact String.lt_trans (hsorted _ entry hold) hlast
    · obtain ⟨message, -, rfl⟩ := List.mem_map.mp hnew
      exact hlast

/-- Options without a fault are the acceptable ones. -/
theorem faults_eq_nil_iff {o : TokenOptions} : o.faults = [] ↔ o.IsAcceptable := by
  simp only [faults, List.append_eq_nil_iff, ite_eq_left_iff, List.cons_ne_nil, imp_false, not_not]
  exact ⟨fun h => ⟨h.1.1, h.1.2, h.2⟩, fun h => ⟨⟨h.name, h.symbol⟩, h.votes⟩⟩

/-- The message of a field is found under its name, and only if the field is at fault. -/
theorem lookup_faults (o : TokenOptions) :
    o.faults.lookup "name" = (if IsName o.name then none else some (nameFault o.name)) ∧
      o.faults.lookup "symbol" = (if IsSymbol o.symbol then none else some (symbolFault o.symbol)) ∧
      o.faults.lookup "votes" =
        (if o.votes = true → o.permit = true then none else some "Requires permit") := by
  unfold faults
  split_ifs <;> exact ⟨rfl, rfl, rfl⟩

theorem isEmpty_problems_iff {o : TokenOptions} :
    o.problems.isEmpty = true ↔ o.IsAcceptable := by
  rw [FieldMessages.isEmpty, List.isEmpty_iff, entries_problems, faults_eq_nil_iff]

/-- **Valid options** are the acceptable ones. -/
theorem validate_eq_ok_iff_isAcceptable {o : TokenOptions} :
    o.validate = .ok () ↔ o.IsAcceptable := by
  rw [← isEmpty_problems_iff, validate]
  split <;> simp_all

/-- Options at fault are refused with their faults. -/
theorem validate_eq_error {o : TokenOptions} (h : ¬ o.IsAcceptable) :
    o.validate = .error (.options ⟨o.faults⟩) := by
  rw [validate, if_neg (mt isEmpty_problems_iff.mp h), ← entries_problems]

/-! ## Refusals -/

theorem build_eq_error {o : TokenOptions} {refusal : Refusal} (h : o.validate = .error refusal) :
    o.build = .error refusal := by
  rw [build, h]
  rfl

theorem source_eq_error {o : TokenOptions} {refusal : Refusal} (h : o.build = .error refusal) :
    (Request.token o).source = .error refusal := by
  rw [Request.source, Request.build, h]
  rfl

/-- **Refusals of options.** The contract of a token and its source are refused just when its
options are not acceptable, both for the faults of the options; so whatever is refused, validation
refused it, and of what assembly and printing check on their own nothing ever fails. The message of
a field is the same in all options that agree in this field, for votes also in the permits that they
need, whatever else is at fault. -/
theorem refusals (o : TokenOptions) :
    ((∃ c, o.build = .ok c) ↔ o.IsAcceptable) ∧
      ((∃ text, (Request.token o).source = .ok text) ↔ o.IsAcceptable) ∧
      (¬ o.IsAcceptable →
        o.build = .error (.options ⟨o.faults⟩) ∧
        (Request.token o).source = .error (.options ⟨o.faults⟩)) ∧
      (∀ refusal,
        (o.build = .error refusal ↔ o.validate = .error refusal) ∧
        ((Request.token o).source = .error refusal ↔ o.validate = .error refusal)) ∧
      ∀ o' : TokenOptions,
        (o.name = o'.name → o.faults.lookup "name" = o'.faults.lookup "name") ∧
        (o.symbol = o'.symbol → o.faults.lookup "symbol" = o'.faults.lookup "symbol") ∧
        (o.votes = o'.votes → o.permit = o'.permit →
          o.faults.lookup "votes" = o'.faults.lookup "votes") := by
  have hmessages : ∀ o' : TokenOptions,
      (o.name = o'.name → o.faults.lookup "name" = o'.faults.lookup "name") ∧
      (o.symbol = o'.symbol → o.faults.lookup "symbol" = o'.faults.lookup "symbol") ∧
      (o.votes = o'.votes → o.permit = o'.permit →
        o.faults.lookup "votes" = o'.faults.lookup "votes") := by
    intro o'
    obtain ⟨hname, hsymbol, hvotes⟩ := o.lookup_faults
    obtain ⟨hname', hsymbol', hvotes'⟩ := o'.lookup_faults
    rw [hname, hsymbol, hvotes, hname', hsymbol', hvotes']
    exact ⟨fun h => by rw [h], fun h => by rw [h], fun h hpermit => by rw [h, hpermit]⟩
  by_cases h : o.IsAcceptable
  · have hvalid := validate_eq_ok_iff_isAcceptable.mpr h
    obtain ⟨d, -, hsource⟩ := source_eq hvalid
    refine ⟨⟨fun _ => h, fun _ => ⟨_, build_eq hvalid⟩⟩, ⟨fun _ => h, fun _ => ⟨_, hsource⟩⟩,
      fun hnot => absurd h hnot, fun refusal => ?_, hmessages⟩
    rw [build_eq hvalid, hsource, hvalid]
    simp only [reduceCtorEq, and_self]
  · have hrefused := validate_eq_error h
    have hbuild := build_eq_error hrefused
    have hsource := source_eq_error hbuild
    refine ⟨⟨?_, fun hok => absurd hok h⟩, ⟨?_, fun hok => absurd hok h⟩,
      fun _ => ⟨hbuild, hsource⟩, fun refusal => ?_, hmessages⟩
    · rintro ⟨c, hc⟩
      exact nomatch hbuild.symm.trans hc
    · rintro ⟨text, htext⟩
      exact nomatch hsource.symm.trans htext
    · rw [hbuild, hsource, hrefused]
      simp only [Except.error.injEq, and_self]

end TokenOptions

end CairoForge
