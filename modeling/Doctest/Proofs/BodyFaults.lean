import Doctest.Assembly
import Doctest.Proofs.Result

/-!
# The faults of a snippet's body

The body of a part of a snippet is edited, translated and wrapped. `bodyLines_faults` says where the
faults of that stand and what they are about: they stand on the line of the part, and none of them
is about a cycle of includes.
-/

namespace Doctest

/-! ## Edits -/

/-- The fault comes from a locator and has no place yet. -/
def OfLocator (f : Fault) : Prop := ∃ c : LocatorCause, f = .of c

theorem Locator.resolve_faults (l : Locator) (lines : Lines) :
    Faults (l.resolve lines) OfLocator := by
  unfold Locator.resolve
  split
  · split
    · split
      · exact faults_ok _
      · exact faults_error ⟨_, rfl⟩
    · split
      · exact faults_ok _
      · exact faults_error ⟨_, rfl⟩
  · split
    · exact faults_ok _
    · exact faults_error ⟨_, rfl⟩

theorem LineRange.resolve_faults (r : LineRange) (lines : Lines) :
    Faults (r.resolve lines) OfLocator := by
  cases r with
  | single l => exact faults_bind (l.resolve_faults lines) fun _ _ => faults_ok _
  | span first last =>
    refine faults_bind (first.resolve_faults lines) fun a _ => ?_
    refine faults_bind (last.resolve_faults lines) fun b _ => ?_
    split
    · exact faults_error ⟨_, rfl⟩
    · exact faults_ok _

theorem LineSet.resolve_faults (set : LineSet) (lines : Lines) :
    Faults (set.resolve lines) OfLocator :=
  faults_bind (faults_mapM fun r _ => r.resolve_faults lines) fun _ _ => faults_ok _

theorem Insertion.apply_faults (insertions : List Insertion) (lines : Lines) :
    Faults (Insertion.apply insertions lines) OfLocator := by
  refine faults_bind (faults_mapM fun i _ => ?_) fun _ _ => faults_ok _
  exact faults_bind (i.point.locator.resolve_faults lines) fun _ _ => faults_ok _

theorem LineMod.edit_faults (m : LineMod) (lines : Lines) : Faults (m.edit lines) OfLocator :=
  faults_bind (m.ignored.resolve_faults lines) fun _ _ => Insertion.apply_faults _ _

/-! ## Languages -/

/-- The fault comes from the definitions of languages and has no place yet. -/
def OfConfig (f : Fault) : Prop := ∃ c : ConfigCause, f = .of c

theorem Config.resolve_faults (config : Config) (chain : List String) (key : String) :
    Faults (config.resolve chain key) OfConfig := by
  fun_induction Config.resolve config chain key with
  | case1 => exact faults_error ⟨_, rfl⟩
  | case2 => exact faults_ok _
  | case3 chain key _ d _ parentKey _ _ fault hresolve ih => exact faults_error (ih fault hresolve)
  | case4 => exact faults_ok _
  | case5 => exact faults_error ⟨_, rfl⟩
  | case6 => exact faults_error ⟨_, rfl⟩
  | case7 => exact faults_ok _

/-! ## Bodies -/

/-- The cause is a cycle of includes, with these IDs on the path. -/
def Cause.includeCycle? : Cause → Option (List String)
  | .run (.includeCycle ids) => some ids
  | _ => none

/-- The fault stands on the line and is not about a cycle of includes. -/
def OnLine (line : Nat) (f : Fault) : Prop :=
  f.place = some (.line line) ∧ f.cause.includeCycle? = none

theorem onLine_atLine (line : Nat) {cause : Cause} (h : cause.includeCycle? = none) :
    OnLine line (.atLine line cause) := ⟨rfl, h⟩

namespace Scope

theorem lineMod_faults (scope : Scope) (line : Nat) (key id : String) :
    Faults (scope.lineMod line key id) (OnLine line) := by
  unfold lineMod
  split
  · exact faults_ok _
  · split
    · exact faults_error (onLine_atLine line rfl)
    · exact faults_error (onLine_atLine line rfl)

theorem language?_faults (scope : Scope) (p : Properties) :
    Faults (scope.language? p) (OnLine p.line) := by
  refine faults_atLine (faults_mono (Config.resolve_faults scope.config [] p.lang) ?_)
  rintro f ⟨c, rfl⟩
  exact ⟨rfl, rfl, rfl⟩

theorem edit_faults (m : LineMod) (line : Nat) (lines : Lines) :
    Faults (Except.atLine line (m.edit lines)) (OnLine line) := by
  refine faults_atLine (faults_mono (m.edit_faults lines) ?_)
  rintro f ⟨c, rfl⟩
  exact ⟨rfl, rfl, rfl⟩

theorem bodyLineMod_faults (scope : Scope) (p : Properties) :
    Faults (scope.bodyLineMod p) (OnLine p.line) := by
  unfold bodyLineMod
  split
  · exact faults_map (scope.lineMod_faults p.line "applyToBody" _)
  · exact faults_ok _

theorem translated_faults (scope : Scope) (p : Properties) (lines : Lines) :
    Faults (scope.translated p lines) (OnLine p.line) := by
  refine faults_bind (scope.language?_faults p) fun lang _ => ?_
  split
  · split
    · exact faults_ok _
    · exact faults_error (onLine_atLine p.line rfl)
  · exact faults_ok _

/-- **The faults of a body.** They stand on the line of the part that the body belongs to, and they
are never about a cycle of includes. -/
theorem bodyLines_faults (scope : Scope) (e : Element) :
    Faults (scope.bodyLines e) (OnLine e.properties.line) := by
  refine faults_bind (scope.bodyLineMod_faults e.properties) fun m? _ => ?_
  split
  · refine faults_bind (edit_faults _ _ e.body) fun edited _ => ?_
    exact faults_bind (scope.translated_faults e.properties edited) fun _ _ => faults_ok _
  · exact scope.translated_faults e.properties e.body

theorem snippet_faults (scope : Scope) (line : Nat) (key id : String) :
    Faults (scope.snippet line key id) (OnLine line) := by
  unfold snippet
  split
  · exact faults_ok _
  · split
    · exact faults_error (onLine_atLine line rfl)
    · exact faults_error (onLine_atLine line rfl)

end Scope

end Doctest
