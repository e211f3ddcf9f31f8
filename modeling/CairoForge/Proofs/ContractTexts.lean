import CairoForge.Proofs.RegistryHistory

/-!
# The texts of a contract

A contract is made of texts that were handed to the operations that built it, and of a few that
features bring along. A property that all of these have is a property of every text in the contract.

## Main definitions

* `Operation.texts` — the texts that an operation is handed.
* `Contract.EachText` — every text of a contract that its source can show has a property.
* `Contract.featureTexts`, `Contract.roleTexts` — the texts that features bring along.
* `KeptByPrinting` — properties that the texts of features have, and what is printed from texts.

## Main results

* `Contract.EachText.attempt`, `Contract.EachText.run` — what one call and several preserve.
* `Contract.eachText_run` — the texts of a contract have what all texts handed over have.
-/

namespace CairoForge

/-! ## Texts -/

def Argument.texts (arg : Argument) : List String :=
  arg.name :: arg.type?.toList

def FunctionTemplate.texts (template : FunctionTemplate) : List String :=
  template.base?.toList ++ [template.name] ++ template.implicitArgs.flatMap Argument.texts ++
    template.args.flatMap Argument.texts ++
    (template.returns?.getD []).flatMap Argument.texts ++ template.returnValue?.toList

/-- The texts of a function: those of its template, its modifiers and its code. -/
def ContractFunction.texts (function : ContractFunction) : List String :=
  function.template.texts ++ function.modifiers ++ function.code

def BaseModule.texts (base : BaseModule) : List String :=
  base.name :: base.path :: base.symbols

/-- The texts of a value, remarks around it included. -/
def Value.texts : Value → List String
  | text content => [content]
  | number _ => []
  | literal source => [source]
  | note remark value => remark :: value.texts

def Parent.texts (p : Parent) : List String :=
  p.base.texts ++ p.params.flatMap Value.texts

/-- The texts that an operation is handed, as far as a source can show them. -/
def Operation.texts : Operation → List String
  | addParent base params => Parent.texts ⟨base, params⟩
  | addAttachment library _ => library.texts
  | addFunction template => template.texts
  | addModifier modifier template => modifier :: template.texts
  | addCode line template => line :: template.texts
  | setBody lines template => lines ++ template.texts
  | addConstructorArg arg => arg.texts
  | addConstructorCode line => [line]
  | addVariable declaration => [declaration]
  | addTag key value => [key, value]
  | setLicense license => [license]
  | setUpgradeable _ => []
  | restrict entry _ role => role :: entry.texts
  | makePausable _ entries => entries.flatMap FunctionTemplate.texts
  | makeUpgradeable _ _ => []
  | describe info => [info.securityContact, info.license].filter (!·.isEmpty)

/-- **Every text of a contract that its source can show has a property.** -/
structure Contract.EachText (P : String → Prop) (c : Contract) : Prop where
  license : P c.license
  tags : ∀ tag ∈ c.tags, P tag.key ∧ P tag.value
  libraries : ∀ a ∈ c.attachments, ∀ text ∈ a.library.texts, P text
  constructorArgs : ∀ arg ∈ c.constructorArgs, ∀ text ∈ arg.texts, P text
  constructorCode : ∀ line ∈ c.constructorCode, P line
  parents : ∀ p ∈ c.parents, ∀ text ∈ p.texts, P text
  functions : ∀ f ∈ c.functions, ∀ text ∈ f.texts, P text
  declarations : ∀ declaration ∈ c.declarations, P declaration

/-! ## Texts of features -/

namespace Contract

/-- The texts that features and fresh contracts bring along. -/
def featureTexts : List String :=
  [⟨.ownable, [.literal "owner"]⟩, ⟨.accessControl, []⟩, ⟨.pausable, []⟩, ⟨.initializable, []⟩,
      ⟨.proxy, [.literal "owner"]⟩].flatMap Parent.texts ++
    [.paused, .pause, .unpause, .upgrade].flatMap FunctionTemplate.texts ++ Argument.owner.texts ++
    ["MIT", "Ownable_only_owner()", notPausedGuard, grantStatement "DEFAULT_ADMIN_ROLE",
      Metadata.contactKey, "PAUSER", "UPGRADER"]

/-- The texts that a guard by a role brings along. -/
def roleTexts (role : String) : List String :=
  [roleDeclaration role, grantStatement (roleConstant role), AccessMode.roles.guardStatement role]

end Contract

/-- A text in one line, with a character of ASCII in it that can be seen. -/
def isLegible (text : String) : Bool :=
  breaks text == 0 && text.toList.any fun ch => '!' ≤ ch && ch ≤ '~'

/-- **Properties that printing keeps**: legible texts have them, and so have texts that are put
together, texts behind spaces, and paths with dots for slashes. -/
structure KeptByPrinting (P : String → Prop) : Prop where
  legible : ∀ {text}, isLegible text = true → P text
  append : ∀ {first second}, P first → P second → P (first ++ second)
  spaced : ∀ {spaces text}, spaces.toList.all (· == ' ') → P text → P (spaces ++ text)
  dotted : ∀ {base : BaseModule}, P base.path → P base.importPath

namespace KeptByPrinting

variable {P : String → Prop} (hP : KeptByPrinting P)
include hP

theorem indent {text : String} (h : P text) : P ("    " ++ text) :=
  hP.spaced (by decide) h

/-! Fixed texts around others -/

theorem behind {first text : String} (hfirst : isLegible first = true) (h : P text) :
    P (first ++ text) :=
  hP.append (hP.legible hfirst) h

theorem before {text last : String} (h : P text) (hlast : isLegible last = true) :
    P (text ++ last) :=
  hP.append h (hP.legible hlast)

theorem between {first text last : String} (hfirst : isLegible first = true)
    (hlast : isLegible last = true) (h : P text) : P (first ++ text ++ last) :=
  hP.before (hP.behind hfirst h) hlast

/-! What features bring along -/

theorem of_features {texts : List String} (h : texts ⊆ Contract.featureTexts) :
    ∀ text ∈ texts, P text := by
  have hlegible : ∀ text ∈ Contract.featureTexts, isLegible text = true := by decide +kernel
  intro text htext
  exact hP.legible (hlegible text (h htext))

theorem of_role {role : String} (hrole : P role) : ∀ text ∈ Contract.roleTexts role, P text := by
  have hconstant : P (roleConstant role) := hP.before hrole (by decide)
  -- the constant is declared as its own name, in quotes
  have hdeclaration : P (roleDeclaration role) :=
    hP.before (hP.append (hP.between (by decide) (by decide) hconstant) hconstant) (by decide)
  have hgrant : P (grantStatement (roleConstant role)) :=
    hP.between (by decide) (by decide) hconstant
  have hguard : P (AccessMode.roles.guardStatement role) :=
    hP.between (by decide) (by decide) hconstant
  simp only [Contract.roleTexts, List.forall_mem_cons]
  exact ⟨hdeclaration, hgrant, hguard, nofun⟩

end KeptByPrinting

namespace Contract

variable {P : String → Prop} {c : Contract}

namespace EachText

theorem imp {Q : String → Prop} (h : c.EachText P) (himp : ∀ text, P text → Q text) :
    c.EachText Q where
  license := himp _ h.license
  tags tag htag := ⟨himp _ (h.tags tag htag).1, himp _ (h.tags tag htag).2⟩
  libraries a ha text htext := himp _ (h.libraries a ha text htext)
  constructorArgs arg harg text htext := himp _ (h.constructorArgs arg harg text htext)
  constructorCode line hline := himp _ (h.constructorCode line hline)
  parents p hp text htext := himp _ (h.parents p hp text htext)
  functions f hf text htext := himp _ (h.functions f hf text htext)
  declarations declaration hdeclaration := himp _ (h.declarations declaration hdeclaration)

/-! ## What single calls preserve -/

theorem new (hP : KeptByPrinting P) (title : String) : (Contract.new title).EachText P where
  license := show P "MIT" from hP.legible (by decide)
  tags _ htag := nomatch htag
  libraries _ ha := nomatch ha
  constructorArgs _ harg := nomatch harg
  constructorCode _ hline := nomatch hline
  parents _ hp := nomatch hp
  functions _ hf := nomatch hf
  declarations _ hdeclaration := nomatch hdeclaration

theorem addParent (h : c.EachText P) {base : BaseModule} {params : List Value}
    (htexts : ∀ text ∈ Parent.texts ⟨base, params⟩, P text) :
    (c.addParent base params).2.EachText P :=
  { h with
    parents := by
      intro p hp
      rcases Registry.mem_put.mp (mem_parents.mp hp) with rfl | ⟨hold, -⟩
      · exact htexts
      · exact h.parents p (mem_parents.mpr hold) }

theorem addVariable (h : c.EachText P) {declaration : String} (hdeclaration : P declaration) :
    (c.addVariable declaration).2.EachText P :=
  { h with
    declarations := by
      intro other hother
      rcases Registry.mem_put.mp hother with rfl | ⟨hold, -⟩
      · exact hdeclaration
      · exact h.declarations other hold }

theorem putFunction (h : c.EachText P) {function : ContractFunction}
    (hfunction : ∀ text ∈ function.texts, P text) : (c.putFunction function).EachText P :=
  { h with
    functions := by
      intro f hf
      rcases Registry.mem_put.mp hf with rfl | ⟨hold, -⟩
      · exact hfunction
      · exact h.functions f hold }

theorem addConstructorArg (h : c.EachText P) {arg : Argument} (harg : ∀ text ∈ arg.texts, P text) :
    (c.addConstructorArg arg).EachText P :=
  { h with
    constructorArgs := List.forall_mem_append.mpr
      ⟨h.constructorArgs, List.forall_mem_singleton.mpr harg⟩ }

theorem addConstructorCode (h : c.EachText P) {line : String} (hline : P line) :
    (c.addConstructorCode line).EachText P :=
  { h with
    constructorCode := List.forall_mem_append.mpr
      ⟨h.constructorCode, List.forall_mem_singleton.mpr hline⟩ }

/-- The function that a template stands for was there with its texts, or has those of the
template. -/
theorem functionOrFresh (h : c.EachText P) {template : FunctionTemplate}
    (htemplate : ∀ text ∈ template.texts, P text) :
    ∀ text ∈ (c.functionOrFresh template).texts, P text := by
  unfold Contract.functionOrFresh
  cases hfind : c.function? template with
  | none => simpa [ContractFunction.texts, ContractFunction.code, FunctionBody.code] using htemplate
  | some function => exact h.functions function (Registry.find?_eq_some_iff.mp hfind).1

theorem addModifier (h : c.EachText P) {modifier : String} {template : FunctionTemplate}
    (hmodifier : P modifier) (htemplate : ∀ text ∈ template.texts, P text) :
    (c.addModifier modifier template).EachText P := by
  refine h.putFunction ?_
  have hfunction := h.functionOrFresh htemplate
  simp only [ContractFunction.texts, ContractFunction.attach, List.forall_mem_append,
    List.forall_mem_singleton] at hfunction ⊢
  exact ⟨⟨hfunction.1.1, hfunction.1.2, hmodifier⟩, hfunction.2⟩

/-- A change of a body that is refused leaves the function that it mentioned. -/
theorem attemptOn (h : c.EachText P) {template : FunctionTemplate}
    (htemplate : ∀ text ∈ template.texts, P text)
    {change : ContractFunction → Except Refusal ContractFunction}
    (hchange : ∀ changed, change (c.functionOrFresh template) = .ok changed →
      ∀ text ∈ changed.texts, P text) :
    (c.attemptOn template change).contract.EachText P := by
  unfold Contract.attemptOn
  dsimp only
  -- the function is there afterwards in either case
  split
  · next changed hchanged => exact h.putFunction (hchange changed hchanged)
  · exact h.putFunction (h.functionOrFresh htemplate)

theorem addCode (h : c.EachText P) {line : String} {template : FunctionTemplate} (hline : P line)
    (htemplate : ∀ text ∈ template.texts, P text) :
    (c.addCode line template).contract.EachText P := by
  refine h.attemptOn htemplate fun changed hchanged => ?_
  unfold ContractFunction.appendCode at hchanged
  split at hchanged
  · next body hbody =>
    obtain rfl := Except.ok.inj hchanged
    have hfunction := h.functionOrFresh htemplate
    simp only [ContractFunction.texts, ContractFunction.code, FunctionBody.code_append? hbody,
      List.forall_mem_append, List.forall_mem_singleton] at hfunction ⊢
    exact ⟨hfunction.1, hfunction.2, hline⟩
  · cases hchanged

theorem setBody (h : c.EachText P) {lines : List String} {template : FunctionTemplate}
    (hlines : ∀ line ∈ lines, P line) (htemplate : ∀ text ∈ template.texts, P text) :
    (c.setBody lines template).contract.EachText P := by
  refine h.attemptOn htemplate fun changed hchanged => ?_
  unfold ContractFunction.setBody at hchanged
  split at hchanged
  · next body hbody =>
    obtain rfl := Except.ok.inj hchanged
    have hfunction := h.functionOrFresh htemplate
    have hcode : body.code = lines := by
      unfold FunctionBody.fix? at hbody
      split at hbody
      · obtain rfl := Option.some.inj hbody
        rfl
      · cases hbody
    simp only [ContractFunction.texts, ContractFunction.code, hcode,
      List.forall_mem_append] at hfunction ⊢
    exact ⟨hfunction.1, hlines⟩
  · cases hchanged

/-- **What one call preserves.** -/
theorem attempt (h : c.EachText P) {call : Operation} (hcall : call.isFeature = false)
    (htexts : ∀ text ∈ call.texts, P text) : (call.attempt c).contract.EachText P := by
  cases call with
  | addParent base params => exact h.addParent htexts
  | addAttachment library target =>
    exact { h with
      libraries := List.forall_mem_append.mpr
        ⟨h.libraries, List.forall_mem_singleton.mpr htexts⟩ }
  | addFunction template => exact h.putFunction (h.functionOrFresh htexts)
  | addModifier modifier template =>
    obtain ⟨hmodifier, htemplate⟩ := List.forall_mem_cons.mp htexts
    exact h.addModifier hmodifier htemplate
  | addCode line template =>
    obtain ⟨hline, htemplate⟩ := List.forall_mem_cons.mp htexts
    exact h.addCode hline htemplate
  | setBody lines template =>
    obtain ⟨hlines, htemplate⟩ := List.forall_mem_append.mp htexts
    exact h.setBody hlines htemplate
  | addConstructorArg arg => exact h.addConstructorArg htexts
  | addConstructorCode line =>
    exact h.addConstructorCode (List.forall_mem_singleton.mp htexts)
  | addVariable declaration => exact h.addVariable (List.forall_mem_singleton.mp htexts)
  | addTag key value =>
    rw [Operation.attempt, Contract.addTag]
    -- a key that is no tag is refused, and nothing changes
    split
    · obtain ⟨hkey, hvalue⟩ := List.forall_mem_cons.mp htexts
      exact { h with
        tags := List.forall_mem_append.mpr ⟨h.tags, List.forall_mem_singleton.mpr
          ⟨hkey, List.forall_mem_singleton.mp hvalue⟩⟩ }
    · exact h
  | setLicense license => exact { h with license := List.forall_mem_singleton.mp htexts }
  | setUpgradeable upgradeable => exact { h with }
  | restrict | makePausable | makeUpgradeable | describe => cases hcall

theorem run (h : c.EachText P) {calls : List Operation}
    (hcalls : ∀ call ∈ calls, call.isFeature = false)
    (htexts : ∀ call ∈ calls, ∀ text ∈ call.texts, P text) : (c.run calls).EachText P := by
  induction calls generalizing c with
  | nil => exact h
  | cons call rest ih =>
    obtain ⟨hcall, hrest⟩ := List.forall_mem_cons.mp hcalls
    obtain ⟨hfirst, hothers⟩ := List.forall_mem_cons.mp htexts
    exact ih (h.attempt hcall hfirst) hrest hothers

end EachText

/-! ## Texts of the calls of a run -/

/-- The parts of an operation have its texts and those of features. -/
theorem texts_of_mem_parts (hP : KeptByPrinting P) {operation : Operation}
    (htexts : ∀ text ∈ operation.texts, P text) {part : Operation}
    (hpart : part ∈ operation.parts) : ∀ text ∈ part.texts, P text := by
  cases operation with
  | makePausable mode entries =>
    simp only [Operation.parts, List.mem_append, List.mem_cons, List.mem_map, List.not_mem_nil,
      or_false] at hpart
    rcases hpart with (rfl | ⟨entry, hentry, rfl⟩) | rfl | rfl | rfl
    · exact hP.of_features (by decide)
    · refine List.forall_mem_cons.mpr ⟨hP.legible (by decide), fun text htext => ?_⟩
      exact htexts text (List.mem_flatMap.mpr ⟨entry, hentry, htext⟩)
    · exact hP.of_features (by decide)
    · exact hP.of_features (show "PAUSER" :: FunctionTemplate.pause.texts ⊆ _ by decide)
    · exact hP.of_features (show "PAUSER" :: FunctionTemplate.unpause.texts ⊆ _ by decide)
  | makeUpgradeable upgradeable mode =>
    simp only [Operation.parts, List.mem_ite_nil_right, List.mem_cons, List.not_mem_nil,
      or_false] at hpart
    obtain ⟨-, rfl | rfl | rfl | rfl⟩ := hpart
    · exact List.forall_mem_nil P
    · exact hP.of_features (by decide)
    · exact hP.of_features (show "UPGRADER" :: FunctionTemplate.upgrade.texts ⊆ _ by decide)
    · exact hP.of_features (by decide)
  | describe info =>
    -- a text that says nothing is not recorded
    simp only [Operation.texts, List.mem_filter, Bool.not_eq_true', and_imp,
      List.forall_mem_cons] at htexts
    simp only [Operation.parts, List.mem_append, List.mem_ite_nil_left, List.mem_singleton] at hpart
    rcases hpart with ⟨hcontact, rfl⟩ | ⟨hlicense, rfl⟩
    · refine List.forall_mem_cons.mpr ⟨hP.legible (by decide),
        List.forall_mem_singleton.mpr ?_⟩
      exact htexts.1 (Bool.eq_false_iff.mpr hcontact)
    · refine List.forall_mem_singleton.mpr ?_
      exact htexts.2.1 (Bool.eq_false_iff.mpr hlicense)
  | _ =>
    obtain rfl := List.mem_singleton.mp hpart
    exact htexts

/-- The calls of a guard have its texts and those of features. -/
theorem texts_of_mem_guardCalls (hP : KeptByPrinting P) {entry : FunctionTemplate}
    {mode : AccessMode} {role : String} (hrole : P role) (hentry : ∀ text ∈ entry.texts, P text)
    {call : Operation} (hcall : call ∈ c.guardCalls entry mode role) :
    ∀ text ∈ call.texts, P text := by
  have hroles := hP.of_role hrole
  simp only [roleTexts, List.forall_mem_cons] at hroles
  obtain ⟨hdeclaration, hgrant, hguard, -⟩ := hroles
  -- texts of guards are fixed, but for the entry point and what is made of the role
  cases mode with
  | ownable =>
    simp only [guardCalls, List.mem_append, List.mem_cons, List.mem_ite_nil_right, List.not_mem_nil,
      or_false] at hcall
    rcases hcall with (rfl | ⟨-, rfl⟩) | rfl
    · exact hP.of_features (by decide)
    · exact hP.of_features (by decide)
    · have hguard : P "Ownable_only_owner()" := hP.legible (by decide)
      exact List.forall_mem_cons.mpr ⟨hguard, hentry⟩
  | roles =>
    simp only [guardCalls, List.mem_append, List.mem_cons, List.mem_ite_nil_right, List.not_mem_nil,
      or_false] at hcall
    rcases hcall with ((rfl | ⟨-, rfl | rfl⟩) | rfl | ⟨-, rfl⟩) | rfl
    · exact hP.of_features (by decide)
    · exact hP.of_features (by decide)
    · exact hP.of_features (by decide)
    · exact List.forall_mem_singleton.mpr hdeclaration
    · exact List.forall_mem_singleton.mpr hgrant
    · exact List.forall_mem_cons.mpr ⟨hguard, hentry⟩

theorem texts_of_mem_partCalls (hP : KeptByPrinting P) {parts : List Operation}
    (htexts : ∀ part ∈ parts, ∀ text ∈ part.texts, P text) {call : Operation}
    (hcall : call ∈ c.partCalls parts) : ∀ text ∈ call.texts, P text := by
  induction parts generalizing c with
  | nil => cases hcall
  | cons part rest ih =>
    obtain ⟨hpart, hrest⟩ := List.forall_mem_cons.mp htexts
    cases part with
    | restrict entry mode role =>
      obtain ⟨hrole, hentry⟩ := List.forall_mem_cons.mp hpart
      rcases List.mem_append.mp hcall with hcall | hcall
      · exact texts_of_mem_guardCalls hP hrole hentry hcall
      · exact ih hrest hcall
    | _ =>
      rcases List.mem_cons.mp hcall with rfl | hcall
      · exact hpart
      · exact ih hrest hcall

/-- **The texts of a contract have what all texts handed over have**, and those of features. -/
theorem eachText_run (hP : KeptByPrinting P) (title : String) {operations : List Operation}
    (htexts : ∀ operation ∈ operations, ∀ text ∈ operation.texts, P text) :
    ((Contract.new title).run operations).EachText P := by
  have hcalls : ∀ call ∈ (Contract.new title).calls operations, ∀ text ∈ call.texts, P text := by
    intro call hcall
    -- operations are cut into parts, and the guards among these into calls
    refine texts_of_mem_partCalls hP (fun part hpart => ?_) hcall
    obtain ⟨operation, hoperation, hpart⟩ := List.mem_flatMap.mp hpart
    exact texts_of_mem_parts hP (htexts operation hoperation) hpart
  rw [← run_calls]
  exact (EachText.new hP title).run (fun call => isFeature_of_mem_calls) hcalls

end Contract

end CairoForge
