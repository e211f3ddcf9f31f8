import CairoForge.Function
import CairoForge.Proofs.RelatedLists

/-!
# Signatures

The signature of a function is one text. The name of the function ends at the first opening
parenthesis and commas stand between the names of the arguments, so the names can be told from the
text wherever they hold none of these themselves. Closing parentheses, and opening ones in the names
of arguments, do no harm.

## Main definitions

* `FunctionTemplate.WellNamed` — no name runs into the text around it.
* `FunctionTemplate.NamedLike` — two templates with one name and the same names of arguments.

## Main results

* `FunctionTemplate.toList_signature` — the letters of a signature.
* `FunctionTemplate.signature_eq_iff` — signatures tell the names.
-/

namespace CairoForge

namespace FunctionTemplate

/-- The names of a template do not run into the text around them in its signature. -/
structure WellNamed (template : FunctionTemplate) : Prop where
  name : '(' ∉ template.name.toList
  args : ∀ arg ∈ template.args, arg.name ≠ "" ∧ ',' ∉ arg.name.toList

instance : DecidablePred WellNamed := fun template =>
  decidable_of_iff ('(' ∉ template.name.toList ∧
      ∀ arg ∈ template.args, arg.name ≠ "" ∧ ',' ∉ arg.name.toList)
    ⟨fun h => ⟨h.1, h.2⟩, fun h => ⟨h.name, h.args⟩⟩

/-- Two templates have one name and the same names of arguments, whatever else is in them. -/
def NamedLike (s t : FunctionTemplate) : Prop :=
  s.name = t.name ∧ s.args.map (·.name) = t.args.map (·.name)

instance (s t : FunctionTemplate) : Decidable (s.NamedLike t) :=
  inferInstanceAs (Decidable (_ ∧ _))

variable {s t : FunctionTemplate}

theorem NamedLike.signature_eq (h : s.NamedLike t) : s.signature = t.signature := by
  rw [signature, signature, h.1, h.2]

/-- The letters of a signature, cut where the name of the function ends. -/
theorem toList_signature (template : FunctionTemplate) :
    template.signature.toList =
      template.name.toList ++ '(' ::
        ([','].intercalate (template.args.map (·.name.toList)) ++ [')']) := by
  simp only [signature, String.toList_append, String.toList_intercalate, List.map_map,
    List.append_assoc]
  rfl

/-- **Signatures tell the names.** -/
theorem signature_eq_iff (hs : s.WellNamed) (ht : t.WellNamed) :
    s.signature = t.signature ↔ s.NamedLike t := by
  have hargs : ∀ {template : FunctionTemplate}, template.WellNamed →
      ∀ letters ∈ template.args.map (·.name.toList), letters ≠ [] ∧ ',' ∉ letters := by
    intro template hnamed letters hletters
    obtain ⟨arg, harg, rfl⟩ := List.mem_map.mp hletters
    obtain ⟨hsome, hcomma⟩ := hnamed.args arg harg
    exact ⟨mt String.toList_eq_nil_iff.mp hsome, hcomma⟩
  constructor
  · intro h
    have hletters := congrArg String.toList h
    rw [toList_signature, toList_signature] at hletters
    -- the first parenthesis ends the name; the last one is common to both
    obtain ⟨hname, hrest⟩ := eq_of_append_cons_eq hs.name ht.name hletters
    have hjoined := eq_of_intercalate_eq (hargs hs) (hargs ht) (List.append_cancel_right hrest)
    refine ⟨String.toList_inj.mp hname, ?_⟩
    have htexts := congrArg (List.map String.ofList) hjoined
    simpa only [List.map_map, Function.comp_def, String.ofList_toList] using htexts
  · exact NamedLike.signature_eq

example :
    let one : FunctionTemplate := { name := "f", args := [⟨"a,b", none⟩] }
    let two : FunctionTemplate := { name := "f", args := [⟨"a", none⟩, ⟨"b", none⟩] }
    ¬one.WellNamed ∧ one.signature = two.signature := by
  decide

end FunctionTemplate

end CairoForge
