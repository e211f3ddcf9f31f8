import CairoForge.Command.Execution
import CairoForge.Proofs.OptionsRoundTrip
import CairoForge.Proofs.RefusedOptions

/-!
# Exit codes

A command that asks for a contract fails in one of three ways: its file is no text, the text is no
request, or the options are not valid. Behind a successful validation nothing fails any more,
neither assembly nor printing nor hashing, so the exit code tells these ways apart and there is
something on the output just when there was no failure.

## Main definitions

* `Disk` — the bytes of files.
* `Invocation.Unreadable`, `Invocation.Undecodable`, `Invocation.Asks` — what the file of an
  invocation holds: no text, no request, or options.
* `Invocation.output` — what an invocation writes for a contract and its source.

## Main results

* `TokenOptions.exists_source` — valid options have a contract and a source, which ends in one
  line feed.
* `Invocation.execute_of_asks`, `Invocation.finish_of_valid`, `Invocation.finish_of_refused` — what
  becomes of the options that an invocation asks for.
* `exitCode_answer` — exit codes tell the failures apart, and failures write nothing.
-/

namespace CairoForge

/-! ## Disks -/

/-- The bytes of files, or why they cannot be had. -/
abbrev Disk := String → Except FileError ByteArray

/-- The files of a disk as text. -/
def Disk.files (disk : Disk) : Files := fun file => (disk file).bind textOfBytes

/-- Bytes are a text when they are its encoding. -/
theorem textOfBytes_eq_ok_iff {bytes : ByteArray} {text : String} :
    textOfBytes bytes = .ok text ↔ bytes = text.toUTF8 := by
  rw [textOfBytes, String.fromUTF8?]
  constructor
  · intro h
    by_cases hvalid : bytes.IsValidUTF8
    · rw [dif_pos hvalid] at h
      exact congrArg String.toUTF8 (Except.ok.inj h)
    · rw [dif_neg hvalid] at h
      cases h
  · rintro rfl
    have hvalid : text.toUTF8.IsValidUTF8 := text.isValidUTF8
    rw [dif_pos hvalid]
    rfl

theorem Disk.files_eq_ok_iff {disk : Disk} {file text : String} :
    disk.files file = .ok text ↔ disk file = .ok text.toUTF8 := by
  rw [files]
  cases disk file with
  | error e => exact ⟨nofun, nofun⟩
  | ok bytes =>
    change textOfBytes bytes = .ok text ↔ _
    rw [textOfBytes_eq_ok_iff, Except.ok.injEq]

/-! ## Hashes -/

/-- A digit of a hash. -/
def IsHexDigit (c : Char) : Prop :=
  ('0' ≤ c ∧ c ≤ '9') ∨ ('a' ≤ c ∧ c ≤ 'f')

instance : DecidablePred IsHexDigit := fun _ =>
  inferInstanceAs (Decidable (_ ∨ _))

theorem isHexDigit_digitChar : ∀ n < 16, IsHexDigit (Nat.digitChar n) := by
  decide

theorem Sha256.isHexDigit_of_mem_hexWord {x : UInt32} {c : Char} (h : c ∈ hexWord x) :
    IsHexDigit c := by
  obtain ⟨i, -, rfl⟩ := List.mem_map.mp h
  exact isHexDigit_digitChar _ (Nat.mod_lt _ (by decide))

/-- A hash is sixty-four digits. -/
theorem Sha256.hexDigest_digits (text : String) :
    (hexDigest text).length = 64 ∧ ∀ c ∈ (hexDigest text).toList, IsHexDigit c := by
  rw [hexDigest, String.length_ofList, String.toList_ofList]
  refine ⟨length_hex _, fun c hc => ?_⟩
  simp only [State.hex, List.mem_append] at hc
  rcases hc with ((((((hc | hc) | hc) | hc) | hc) | hc) | hc) | hc <;>
    exact isHexDigit_of_mem_hexWord hc

/-! ## Contracts and sources of options -/

namespace TokenOptions

variable {o : TokenOptions}

/-- **Valid options have a contract and a source.** The source ends in one line feed. -/
theorem exists_source (h : o.validate = .ok ()) :
    ∃ c source body, o.build = .ok c ∧ c.source {} = .ok source ∧ source = body ++ "end\n" := by
  have hclosed := (composed_assembled h).closed
  obtain ⟨d, hd, -⟩ := hclosed.document {}
  have hne : d.constructors ≠ [] := by
    obtain ⟨calls, hcalls, -⟩ := hclosed.initializerCalls
    obtain ⟨constructors, hconstructors, rfl⟩ := Contract.document_eq_ok_iff.mp hd
    rw [Contract.constructors_eq, if_pos hclosed.hasConstructor, hcalls] at hconstructors
    obtain rfl := Except.ok.inj hconstructors
    change Contract.initializing _ _ _ ≠ []
    rw [Contract.initializing]
    split <;> exact List.cons_ne_nil _ _
  obtain ⟨rows, hrows⟩ := Document.exists_rows_concat hne
  obtain ⟨body, hbody⟩ := exists_textOfRows_concat rows "end"
  refine ⟨o.assembled, _, body, build_eq h, Contract.source_eq_ok_iff.mpr ⟨d, hd, rfl⟩, ?_⟩
  rw [Document.render_eq_textOfRows, hrows, hbody]
  rfl

end TokenOptions

/-! ## Invocations -/

namespace Invocation

/-- Does an invocation ask for a contract? -/
def AsksForContract : Invocation → Prop
  | token .. | generate .. | hash .. => True
  | versions | version | help => False

/-- The file of an invocation is no text. -/
def Unreadable (disk : Disk) (invocation : Invocation) : Prop :=
  ∃ file, invocation.file? = some file ∧ ∀ text : String, disk file ≠ .ok text.toUTF8

/-- The text in the file of an invocation is no request. -/
def Undecodable (disk : Disk) (invocation : Invocation) : Prop :=
  ∃ file text, invocation.file? = some file ∧ disk file = .ok text.toUTF8 ∧
    ∀ request, Request.ofText .stepwise text ≠ .ok request

/-- **The options that an invocation asks for**: those of its arguments, or those in its file. -/
inductive Asks (disk : Disk) : Invocation → TokenOptions → Prop
  | token {o : TokenOptions} {asJson : Bool} : Asks disk (.token o asJson) o
  | file {invocation : Invocation} {file text : String} {o : TokenOptions}
    (hfile : invocation.file? = some file) (htext : disk file = .ok text.toUTF8)
    (hrequest : Request.ofText .stepwise text = .ok (.token o)) : Asks disk invocation o

/-- What an invocation writes for a contract and its source. -/
def output (c : Contract) (source : String) : Invocation → String
  | token _ true | generate _ true => c.json.pretty ++ "\n"
  | hash _ => Sha256.hexDigest source ++ "\n"
  | _ => source

variable {disk : Disk} {invocation : Invocation} {o : TokenOptions}

/-- What becomes of the options that an invocation asks for, whatever it writes. -/
def finish (o : TokenOptions) : Invocation → Except Refusal String
  | token _ asJson | generate _ asJson => (Request.token o).emit asJson
  | hash _ => (Request.token o).sourceHash.map (· ++ "\n")
  | _ => .ok ""

theorem readRequest_of_unreadable {file : String}
    (h : ∀ text : String, disk file ≠ .ok text.toUTF8) :
    ∃ e, readRequest disk.files file = .error (.unreadable file e) := by
  have hfile : ∀ text, disk.files file ≠ .ok text := fun text htext =>
    h text (Disk.files_eq_ok_iff.mp htext)
  rw [readRequest]
  cases hread : disk.files file with
  | error e => exact ⟨e, rfl⟩
  | ok text => exact absurd hread (hfile text)

theorem readRequest_of_text {file text : String} (h : disk file = .ok text.toUTF8) :
    readRequest disk.files file =
      (Request.ofText .stepwise text).mapError (.undecodable file) := by
  rw [readRequest, Disk.files_eq_ok_iff.mpr h]
  rfl

/-- Where there is no request an invocation fails like its file. -/
theorem execute_of_error {files : Files} {file : String} {failure : Failure}
    (hfile : invocation.file? = some file) (h : readRequest files file = .error failure) :
    invocation.execute files = .error failure := by
  cases invocation with
  | generate other asJson =>
    obtain rfl := Option.some.inj hfile
    rw [execute, h]
    rfl
  | hash other =>
    obtain rfl := Option.some.inj hfile
    rw [execute, h]
    rfl
  | _ => cases hfile

/-- What an invocation writes comes from the options that it asks for. -/
theorem execute_of_asks (hasks : invocation.AsksForContract) (h : invocation.Asks disk o) :
    invocation.execute disk.files = (invocation.finish o).mapError .refused := by
  cases h with
  | token => rfl
  | @file _ file text _ hfile htext hrequest =>
    -- what the file holds was read as this very request
    have hread := readRequest_of_text htext
    rw [hrequest] at hread
    cases invocation with
    | generate other asJson =>
      obtain rfl := Option.some.inj hfile
      rw [execute, hread]
      rfl
    | hash other =>
      obtain rfl := Option.some.inj hfile
      rw [execute, hread]
      change ((Request.token o).sourceHash.mapError Failure.refused).bind _ = _
      rw [finish]
      cases (Request.token o).sourceHash <;> rfl
    | _ => cases hfile

theorem finish_of_valid (hasks : invocation.AsksForContract) {c : Contract} {source : String}
    (hbuild : o.build = .ok c) (hsource : c.source {} = .ok source) :
    invocation.finish o = .ok (invocation.output c source) := by
  have hemit (asJson : Bool) : (Request.token o).emit asJson =
      .ok (if asJson then c.json.pretty ++ "\n" else source) := by
    rw [Request.emit, Request.build, hbuild]
    cases asJson with
    | false => exact hsource
    | true => rfl
  cases invocation with
  | token _ asJson => cases asJson <;> exact hemit _
  | generate _ asJson => cases asJson <;> exact hemit _
  | hash =>
    rw [finish, Request.sourceHash, Request.source, Request.build, hbuild]
    change (((c.source {}).bind fun source => .ok (Sha256.hexDigest source)).map _) = _
    rw [hsource]
    rfl
  | _ => cases hasks

theorem finish_of_refused (hasks : invocation.AsksForContract) {refusal : Refusal}
    (h : o.validate = .error refusal) : invocation.finish o = .error refusal := by
  have hbuild := TokenOptions.build_eq_error h
  have hemit (asJson : Bool) : (Request.token o).emit asJson = .error refusal := by
    rw [Request.emit, Request.build, hbuild]
    rfl
  cases invocation with
  | token _ asJson => exact hemit asJson
  | generate _ asJson => exact hemit asJson
  | hash =>
    rw [finish, Request.sourceHash, TokenOptions.source_eq_error hbuild]
    rfl
  | _ => cases hasks

/-- The file of an invocation holds no text, or no request, or options. -/
theorem unreadable_or_undecodable_or_asks (disk : Disk) (hasks : invocation.AsksForContract) :
    invocation.Unreadable disk ∨ invocation.Undecodable disk ∨ ∃ o, invocation.Asks disk o := by
  have hread {file : String} (hfile : invocation.file? = some file) :
      invocation.Unreadable disk ∨ invocation.Undecodable disk ∨ ∃ o, invocation.Asks disk o := by
    by_cases htext : ∃ text : String, disk file = .ok text.toUTF8
    · obtain ⟨text, htext⟩ := htext
      cases hrequest : Request.ofText .stepwise text with
      | error e => exact .inr (.inl ⟨file, text, hfile, htext, by simp [hrequest]⟩)
      | ok request =>
        cases request with
        | token o => exact .inr (.inr ⟨o, .file hfile htext hrequest⟩)
    · exact .inl ⟨file, hfile, not_exists.mp htext⟩
  cases invocation with
  | token o => exact .inr (.inr ⟨o, .token⟩)
  | generate file => exact hread rfl
  | hash file => exact hread rfl
  | _ => cases hasks

end Invocation

/-! ## Answers -/

/-- Nothing is written unless the exit code is zero. -/
theorem Answer.output_ofResult (result : Except Failure String) :
    (Answer.ofResult result).exitCode ≠ 0 → (Answer.ofResult result).output = "" := by
  cases result with
  | ok text => exact fun h => absurd rfl h
  | error failure => exact fun _ => rfl

section Answers

variable {disk : Disk} {arguments : List String} {invocation : Invocation} {o : TokenOptions}
  (harguments : Invocation.ofArguments arguments = .ok invocation)

include harguments

theorem answer_eq : answer arguments disk.files = .ofResult (invocation.execute disk.files) := by
  rw [answer, perform, harguments]
  rfl

/-- A file that is no text is misuse. -/
theorem exitCode_of_unreadable (h : invocation.Unreadable disk) :
    (answer arguments disk.files).exitCode = 2 := by
  obtain ⟨file, hfile, htext⟩ := h
  obtain ⟨e, hread⟩ := Invocation.readRequest_of_unreadable htext
  rw [answer_eq harguments, Invocation.execute_of_error hfile hread]
  rfl

theorem exitCode_of_undecodable (h : invocation.Undecodable disk) :
    (answer arguments disk.files).exitCode = 1 := by
  obtain ⟨file, text, hfile, htext, hrequest⟩ := h
  have hread := Invocation.readRequest_of_text htext
  cases hdecode : Request.ofText .stepwise text with
  | ok request => exact absurd hdecode (hrequest request)
  | error e =>
    rw [hdecode] at hread
    rw [answer_eq harguments, Invocation.execute_of_error hfile hread]
    rfl

variable (hasks : invocation.AsksForContract)

include hasks

theorem answer_of_refused (ho : invocation.Asks disk o) {refusal : Refusal}
    (h : o.validate = .error refusal) :
    answer arguments disk.files = ⟨1, "", (Failure.refused refusal).text⟩ := by
  rw [answer_eq harguments, Invocation.execute_of_asks hasks ho,
    Invocation.finish_of_refused hasks h]
  rfl

theorem answer_of_valid (ho : invocation.Asks disk o) {c : Contract} {source : String}
    (hbuild : o.build = .ok c) (hsource : c.source {} = .ok source) :
    answer arguments disk.files = ⟨0, invocation.output c source, ""⟩ := by
  rw [answer_eq harguments, Invocation.execute_of_asks hasks ho,
    Invocation.finish_of_valid hasks hbuild hsource]
  rfl

end Answers

/-- Of conditions with exit codes of their own one holds, so each is told by its code. -/
theorem exitCode_iff {code : UInt32} {misuse failure success : Prop} (hmisuse : misuse → code = 2)
    (hfailure : failure → code = 1) (hsuccess : success → code = 0)
    (hkinds : misuse ∨ failure ∨ success) :
    (code = 2 ↔ misuse) ∧ (code = 1 ↔ failure) ∧ (code = 0 ↔ success) ∧
      (code = 0 ∨ code = 1 ∨ code = 2) := by
  refine ⟨⟨fun hcode => ?_, hmisuse⟩, ⟨fun hcode => ?_, hfailure⟩, ⟨fun hcode => ?_, hsuccess⟩, ?_⟩
  · rcases hkinds with h | h | h
    · exact h
    · exact absurd ((hfailure h).symm.trans hcode) (by decide)
    · exact absurd ((hsuccess h).symm.trans hcode) (by decide)
  · rcases hkinds with h | h | h
    · exact absurd ((hmisuse h).symm.trans hcode) (by decide)
    · exact h
    · exact absurd ((hsuccess h).symm.trans hcode) (by decide)
  · rcases hkinds with h | h | h
    · exact absurd ((hmisuse h).symm.trans hcode) (by decide)
    · exact absurd ((hfailure h).symm.trans hcode) (by decide)
    · exact h
  · exact hkinds.elim (fun h => .inr (.inr (hmisuse h)))
      (Or.elim · (fun h => .inr (.inl (hfailure h))) fun h => .inl (hsuccess h))

/-- **Exit codes tell the failures apart, and failures write nothing.** A command line that asks for
a contract is answered with `2` just when its file is no text, with `1` just when the text is no
request or the options are not valid, and with `0` just when it asks for valid options. Otherwise
than with `0` nothing goes to the output; with `0` nothing goes to the error output, and to the
output the whole source, which ends in one line feed, the whole JSON of the contract or the
sixty-four digits of the hash, each of these with a line feed behind it. -/
theorem exitCode_answer (disk : Disk) {arguments : List String} {invocation : Invocation}
    (harguments : Invocation.ofArguments arguments = .ok invocation)
    (hasks : invocation.AsksForContract) :
    let reply := answer arguments disk.files
    (reply.exitCode = 2 ↔ invocation.Unreadable disk) ∧
    (reply.exitCode = 1 ↔ invocation.Undecodable disk ∨
      ∃ o, invocation.Asks disk o ∧ o.validate ≠ .ok ()) ∧
    (reply.exitCode = 0 ↔ ∃ o, invocation.Asks disk o ∧ o.validate = .ok ()) ∧
    (reply.exitCode = 0 ∨ reply.exitCode = 1 ∨ reply.exitCode = 2) ∧
    (reply.exitCode ≠ 0 → reply.output = "") ∧
    (reply.exitCode = 0 → reply.errorText = "" ∧
      ∃ o c source body, invocation.Asks disk o ∧ o.build = .ok c ∧ c.source {} = .ok source ∧
        source = body ++ "end\n" ∧ reply.output = invocation.output c source ∧
        (Sha256.hexDigest source).length = 64 ∧
        ∀ digit ∈ (Sha256.hexDigest source).toList, IsHexDigit digit) := by
  intro reply
  have hunreadable : invocation.Unreadable disk → reply.exitCode = 2 :=
    exitCode_of_unreadable harguments
  have hrejected : (invocation.Undecodable disk ∨
      ∃ o, invocation.Asks disk o ∧ o.validate ≠ .ok ()) → reply.exitCode = 1 := by
    rintro (h | ⟨o, ho, hinvalid⟩)
    · exact exitCode_of_undecodable harguments h
    · cases hvalidate : o.validate with
      | ok _ => exact absurd hvalidate hinvalid
      | error refusal =>
        exact congrArg Answer.exitCode (answer_of_refused harguments hasks ho hvalidate)
  have hvalid : ∀ o, invocation.Asks disk o → o.validate = .ok () → reply.exitCode = 0 ∧
      reply.errorText = "" ∧ ∃ c source body, o.build = .ok c ∧ c.source {} = .ok source ∧
        source = body ++ "end\n" ∧ reply.output = invocation.output c source := by
    intro o ho h
    obtain ⟨c, source, body, hbuild, hsource, hbody⟩ := TokenOptions.exists_source h
    have hanswer : reply = ⟨0, invocation.output c source, ""⟩ :=
      answer_of_valid harguments hasks ho hbuild hsource
    rw [hanswer]
    exact ⟨rfl, rfl, c, source, body, hbuild, hsource, hbody, rfl⟩
  have hkinds : invocation.Unreadable disk ∨ (invocation.Undecodable disk ∨
      ∃ o, invocation.Asks disk o ∧ o.validate ≠ .ok ()) ∨
      ∃ o, invocation.Asks disk o ∧ o.validate = .ok () := by
    rcases Invocation.unreadable_or_undecodable_or_asks disk hasks with h | h | ⟨o, ho⟩
    · exact .inl h
    · exact .inr (.inl (.inl h))
    · by_cases h : o.validate = .ok ()
      · exact .inr (.inr ⟨o, ho, h⟩)
      · exact .inr (.inl (.inr ⟨o, ho, h⟩))
  obtain ⟨htwo, hone, hzero, hcodes⟩ := exitCode_iff hunreadable hrejected
    (fun ⟨o, ho, h⟩ => (hvalid o ho h).1) hkinds
  refine ⟨htwo, hone, hzero, hcodes, Answer.output_ofResult _, fun hcode => ?_⟩
  obtain ⟨o, ho, h⟩ := hzero.mp hcode
  obtain ⟨-, herror, c, source, body, hbuild, hsource, hbody, houtput⟩ := hvalid o ho h
  exact ⟨herror, o, c, source, body, ho, hbuild, hsource, hbody, houtput,
    Sha256.hexDigest_digits source⟩

/-- The usual token, written as JSON from the text of its options. -/
theorem exitCode_of_written_options :
    ∃ disk : Disk, disk "token.json" = .ok (Request.token {}).json.compact.toUTF8 ∧
      Invocation.ofArguments ["generate", "--json", "token.json"] =
        .ok (.generate "token.json" true) ∧
      (answer ["generate", "--json", "token.json"] disk.files).exitCode = 0 ∧
      (answer ["generate", "--json", "token.json"] disk.files).errorText = "" := by
  have harguments : Invocation.ofArguments ["generate", "--json", "token.json"] =
      .ok (.generate "token.json" true) := rfl
  have hvalid : ({} : TokenOptions).validate = .ok () := rfl
  -- for any disk with that file: nothing is computed from the text
  have hanswer (disk : Disk)
      (hfile : disk "token.json" = .ok (Request.token {}).json.compact.toUTF8) :
      (answer ["generate", "--json", "token.json"] disk.files).exitCode = 0 ∧
        (answer ["generate", "--json", "token.json"] disk.files).errorText = "" := by
    have hasks : (Invocation.generate "token.json" true).Asks disk {} :=
      .file rfl hfile (Request.ofText_compact .stepwise {})
    obtain ⟨-, -, hzero, -, -, hwritten⟩ := exitCode_answer disk harguments trivial
    have hcode := hzero.mpr ⟨{}, hasks, hvalid⟩
    exact ⟨hcode, (hwritten hcode).1⟩
  exact ⟨fun _ => .ok (Request.token {}).json.compact.toUTF8, rfl, harguments, hanswer _ rfl⟩

end CairoForge
