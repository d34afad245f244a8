import Dossier.Proofs.Binding.Constants
import Dossier.Proofs.CompileUnit.OfRecords

/-!
# Defaults at the end

In a list of parameters whose defaults trail, every parameter behind one with a default has a
default as well, so that the arguments of a call can stand for the first parameters.

`CompileUnit.defaultsTrail_ofPlacement` says this of every compile unit that records give, and
`defaultsTrail_of_bind` that binding keeps it.
-/

set_option autoImplicit false

namespace Dossier

namespace Script

/-- Behind a parameter of the method that has a default, all have one. -/
def Signature.DefaultsTrail (s : Signature) : Prop :=
  s.params.Pairwise fun q r ↦ q.default?.isSome → r.default?.isSome

/-- The defaults of every method trail. -/
def BoundProgram.DefaultsTrail (p : BoundProgram) : Prop :=
  ∀ ci mi m, p.method? ci mi = some m → m.DefaultsTrail

/-! ## Bound units -/

theorem isSome_bindDefault {parameter method text : String} {type : ValueType}
    (h : (bindDefault parameter method type text).notes = []) :
    (bindDefault parameter method type text).value.isSome := by
  obtain ⟨v, v', -, -, hvalue⟩ := bindDefault_clean h
  rw [hvalue, Option.isSome_some]

theorem isSome_default_bindParam {method : String} {q : Parameter}
    (h : (bindParam method q).notes = []) :
    (bindParam method q).value.default?.isSome = q.default?.isSome := by
  cases hq : q.default? with
  | none => simp [bindParam, hq]
  | some text =>
    simp only [bindParam, hq, Noted.notes_bind, Noted.notes_pure, List.append_eq_nil_iff] at h
    simpa [bindParam, hq] using isSome_bindDefault h.2.2.1

theorem isSome_default_bindParams {method : String} {before : List String} {ps : List Parameter}
    (h : (bindParams method before ps).notes = []) :
    (bindParams method before ps).value.map (fun q ↦ q.default?.isSome) =
      ps.map fun q ↦ q.default?.isSome := by
  induction ps generalizing before with
  | nil => rfl
  | cons q qs ih =>
    simp only [bindParams, Noted.notes_bind, Noted.notes_pure, List.append_eq_nil_iff] at h
    simp only [bindParams, Noted.value_bind, Noted.value_pure, List.map_cons]
    rw [isSome_default_bindParam h.2.1, ih h.2.2.1]

/-- Binding a signature keeps which parameters have a default. -/
theorem defaultsTrail_bindSignature {className : String} {m : Method}
    (h : (bindSignature className m).notes = []) (hm : m.DefaultsTrail) :
    (signatureOf className m).DefaultsTrail := by
  simp only [bindSignature, Noted.notes_bind, Noted.notes_pure, List.append_eq_nil_iff] at h
  have hsome := isSome_default_bindParams h.2.1
  have hpair : (m.params.map fun q ↦ q.default?.isSome).Pairwise
      fun b b' ↦ b = true → b' = true := List.pairwise_map.2 hm
  rw [← hsome] at hpair
  exact List.pairwise_map.1 hpair

/-- **Binding keeps defaults at the end.** -/
theorem defaultsTrail_of_bind {u : CompileUnit} {refs : List String} {p : BoundProgram}
    (h : bind u refs = .ok p) (hu : u.DefaultsTrail) : p.DefaultsTrail := by
  intro ci mi m hm
  rw [method?_of_bind h, Option.map_eq_some_iff] at hm
  obtain ⟨t, ht, rfl⟩ := hm
  have hsig := (accepted_of_bind h ht).signature
  obtain ⟨c, decl, hc, hdecl, rfl⟩ := site?_eq_some ht
  exact defaultsTrail_bindSignature hsig
    (hu c (List.mem_of_getElem? hc) decl (List.mem_of_getElem? hdecl))

end Script

end Dossier
