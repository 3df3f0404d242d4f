import Doctest.Declaration
import Doctest.Proofs.Result

/-!
# The faults of a directive

Readers of attribute values and of configurations do not know on which line of the document they are,
so their faults have no place. Whoever calls them has to put the faults on the line of the directive.

* `Unplaced`, `PlacedOn`: a fault without a place, and one on a line.
* `ofDirective_gives`: whatever is wrong with a directive stands on its line, and so does what it
  declares.
-/

namespace Doctest

/-- The place of the fault is not known yet. -/
def Unplaced (f : Fault) : Prop := f.place = none

/-- The fault stands on the line. -/
def PlacedOn (line : Nat) (f : Fault) : Prop := f.place = some (.line line)

/-! ## Readers -/

theorem LineSet.parse_faults (key text : String) : Faults (LineSet.parse key text) Unplaced := by
  unfold LineSet.parse
  dsimp only
  split
  · exact faults_ok _
  · split
    · exact faults_ok _
    · exact faults_error rfl

theorem Substitution.parse_faults (key text : String) :
    Faults (Substitution.parse key text) Unplaced := by
  unfold Substitution.parse
  dsimp only
  split
  · split
    · exact faults_error rfl
    · split
      · exact faults_error rfl
      · split
        · exact faults_error rfl
        · split
          · exact faults_ok _
          · exact faults_error rfl
  · exact faults_error rfl

theorem InsertionPoint.parseList_faults (key text : String) :
    Faults (InsertionPoint.parseList key text) Unplaced := by
  unfold InsertionPoint.parseList
  split
  · exact faults_ok _
  · exact faults_error rfl

theorem Insertion.pair_faults (points : List InsertionPoint) (groups : List Lines) :
    Faults (Insertion.pair points groups) Unplaced := by
  unfold Insertion.pair
  split
  · exact faults_ok _
  · exact faults_error rfl

theorem SequenceNumber.parse_faults (text : String) :
    Faults (SequenceNumber.parse text) Unplaced := by
  unfold SequenceNumber.parse
  dsimp only
  split
  · exact faults_error rfl
  · split
    · exact faults_error rfl
    · exact faults_ok _

theorem ExitStatus.parse_faults (text : String) : Faults (ExitStatus.parse text) Unplaced := by
  unfold ExitStatus.parse
  dsimp only
  split
  · exact faults_ok _
  · split
    · exact faults_ok _
    · exact faults_error rfl

theorem StreamContent.parse_faults (key text : String) :
    Faults (StreamContent.parse key text) Unplaced := by
  unfold StreamContent.parse
  dsimp only
  -- Both ways to write the value end with the same check of its IDs.
  have hclose (lineModId : Option (List Char)) (snippetId shown : List Char) :
      Faults (if snippetId.isEmpty || lineModId.any List.isEmpty then
          .error (.of (DeclarationCause.streamEmptyId key (String.ofList shown)))
        else .ok (StreamContent.mk (lineModId.map String.ofList) (String.ofList snippetId)))
        Unplaced := by
    split
    · exact faults_error rfl
    · exact faults_ok _
  split
  · split
    · exact hclose _ _ _
    · exact faults_error rfl
  · exact hclose _ _ _

theorem External.parseItem_faults (key : String) (localLines : Bool) (item : List Char) :
    Faults (External.parseItem key localLines item) Unplaced := by
  unfold External.parseItem
  dsimp only
  split
  · exact faults_error rfl
  · split
    · exact faults_error rfl
    · exact faults_ok _

theorem External.parseList_faults (key text : String) (localLines : Bool) :
    Faults (External.parseList key text localLines) Unplaced :=
  faults_mapM fun item _ => External.parseItem_faults key localLines item

theorem ConfigPatch.parse_faults (text : String) : Faults (ConfigPatch.parse text) Unplaced := by
  unfold ConfigPatch.parse
  dsimp only
  split
  · exact faults_ok _
  · split
    · split
      · exact faults_ok _
      · exact faults_error rfl
    · split
      · exact faults_error rfl
      · split
        · exact faults_ok _
        · exact faults_error rfl

/-! ## Attributes -/

namespace Directive

variable (d : Directive)

theorem placedOn_fault (cause : Cause) : PlacedOn d.line (d.fault cause) := rfl

theorem value?_faults (key : String) : Faults (d.value? key) (PlacedOn d.line) := by
  unfold value?
  split
  · exact faults_ok _
  · exact faults_ok _
  · exact faults_error (d.placedOn_fault _)

theorem flag_faults (key : String) : Faults (d.flag key) (PlacedOn d.line) := by
  unfold flag
  split
  · exact faults_ok _
  · exact faults_ok _
  · exact faults_error (d.placedOn_fault _)

theorem checkAttributes_faults (kind : String) (allowed : List String) :
    Faults (d.checkAttributes kind allowed) (PlacedOn d.line) := by
  unfold checkAttributes
  split
  · exact faults_ok _
  · exact faults_error (d.placedOn_fault _)

/-- A reader that does not know the line is put on it. -/
theorem read?_faults {α : Type} (key : String) {read : String → Except Fault α}
    (h : ∀ text, Faults (read text) Unplaced) : Faults (d.read? key read) (PlacedOn d.line) := by
  refine faults_bind (d.value?_faults key) fun value? _ => ?_
  split
  · exact faults_ok _
  · exact faults_map (faults_atLine_of_unplaced (h _))

end Directive

/-! ## What is declared -/

/-- What is declared stands on the line of the directive. -/
theorem LineMod.withBody_gives (m : LineMod) (d : Directive) (points : Option String) :
    Gives (m.withBody d points) (PlacedOn d.line) fun m' => m'.line = m.line := by
  unfold LineMod.withBody
  split
  · exact gives_ok rfl
  · exact gives_ok rfl
  · split
    · exact gives_ok rfl
    · exact gives_error rfl
  · split
    · exact gives_error rfl
    · split
      · exact gives_error rfl
      · next text =>
        have hread : Faults (do
            let points ← InsertionPoint.parseList "at" text
            let insertions ← Insertion.pair points d.groups
            .ok { m with insertions }) Unplaced := by
          refine faults_bind (InsertionPoint.parseList_faults _ _) fun points _ => ?_
          exact faults_bind (Insertion.pair_faults _ _) fun _ _ => faults_ok _
        refine ⟨faults_atLine_of_unplaced hread, fun m' hm' => ?_⟩
        obtain ⟨points, -, hm'⟩ := bind_eq_ok.mp (atLine_eq_ok.mp hm')
        obtain ⟨insertions, -, hm'⟩ := bind_eq_ok.mp hm'
        cases hm'
        rfl
  · exact gives_ok rfl
  · exact gives_ok rfl
  · exact gives_ok rfl

theorem LineMod.ofDirective_gives (d : Directive) (kind : LineModKind) :
    Gives (LineMod.ofDirective d kind) (PlacedOn d.line) fun m => m.line = d.line := by
  refine gives_before (d.read?_faults _ (LineSet.parse_faults _)) fun ignored => ?_
  refine gives_before (d.read?_faults _ (Substitution.parse_faults _)) fun substitution => ?_
  refine gives_before (d.value?_faults _) fun points => ?_
  split
  · exact gives_error rfl
  · exact LineMod.withBody_gives _ d points

namespace Properties

theorem readMode_faults (d : Directive) (id : Option String) :
    Faults (readMode d id) (PlacedOn d.line) := by
  refine faults_bind (faults_filterMapM fun _ _ => ?_) fun set _ => ?_
  · exact faults_bind (d.flag_faults _) fun _ _ => faults_ok _
  · split
    · exact faults_ok _
    · exact faults_ok _
    · exact faults_error rfl

theorem readLineMod_faults (d : Directive) (applyToBody : Option String) :
    Faults (readLineMod d applyToBody) (PlacedOn d.line) := by
  unfold readLineMod
  split
  · exact faults_ok _
  · split
    · exact faults_error rfl
    · exact faults_map (LineMod.ofDirective_gives d .internal).1

theorem ofDirective_gives (d : Directive) (lang : String) :
    Gives (Properties.ofDirective d lang) (PlacedOn d.line) fun p => p.line = d.line := by
  refine gives_before (d.value?_faults _) fun id => ?_
  refine gives_before (readMode_faults d id) fun mode => ?_
  refine gives_before (d.read?_faults _ SequenceNumber.parse_faults) fun sequence => ?_
  refine gives_before (d.value?_faults _) fun includes => ?_
  refine gives_before (d.read?_faults _ fun t => External.parseList_faults _ t _)
    fun externals => ?_
  refine gives_before (d.read?_faults _ fun t => External.parseList_faults _ t _)
    fun localExternals => ?_
  refine gives_before (d.read?_faults _ ExitStatus.parse_faults) fun exitStatus => ?_
  refine gives_before (d.read?_faults _ (StreamContent.parse_faults _)) fun stdout => ?_
  refine gives_before (d.read?_faults _ (StreamContent.parse_faults _)) fun stderr => ?_
  refine gives_before (d.value?_faults _) fun applyToBody => ?_
  refine gives_before (readLineMod_faults d applyToBody) fun lineMod => ?_
  refine gives_before (d.value?_faults _) fun applyToOuter => ?_
  refine gives_before (d.flag_faults _) fun runLocalLines => ?_
  refine gives_before (d.value?_faults _) fun runFileName => ?_
  refine gives_before (d.value?_faults _) fun sameAs => ?_
  refine gives_before (d.value?_faults _) fun containedInFile => ?_
  refine gives_before (d.value?_faults _) fun write => ?_
  refine gives_before (d.value?_faults _) fun writeLocal => ?_
  exact gives_ok rfl

end Properties

theorem OpenSnippet.ofDirective_gives (d : Directive) :
    Gives (OpenSnippet.ofDirective d) (PlacedOn d.line) fun s => s.properties.line = d.line := by
  refine gives_bind (Properties.ofDirective_gives d "") fun p hp => ?_
  exact gives_before (d.value?_faults _) fun lang => gives_ok hp

namespace Declaration

/-- The line of what is declared. -/
def line : Declaration → Nat
  | .config line _ => line
  | .lineMod m => m.line
  | .opened s => s.properties.line
  | .closed e => e.properties.line

theorem readConfig_gives (d : Directive) :
    Gives (readConfig d) (PlacedOn d.line) fun declared => declared.line = d.line := by
  refine gives_before (d.checkAttributes_faults _ _) fun _ => ?_
  exact gives_before (faults_atLine_of_unplaced (ConfigPatch.parse_faults _))
    fun patch => gives_ok rfl

theorem readLanguageLineMod_gives (d : Directive) :
    Gives (readLanguageLineMod d) (PlacedOn d.line) fun declared => declared.line = d.line := by
  refine gives_before (d.checkAttributes_faults _ _) fun _ => ?_
  refine gives_before (d.value?_faults _) fun lang => ?_
  exact gives_bind (LineMod.ofDirective_gives d _) fun m hm => gives_ok hm

theorem readAppliableLineMod_gives (d : Directive) :
    Gives (readAppliableLineMod d) (PlacedOn d.line) fun declared => declared.line = d.line := by
  refine gives_before (d.checkAttributes_faults _ _) fun _ => ?_
  refine gives_before (d.value?_faults _) fun id => ?_
  split
  · exact gives_error rfl
  · exact gives_bind (LineMod.ofDirective_gives d _) fun m hm => gives_ok hm

theorem readSnippet_gives (d : Directive) :
    Gives (readSnippet d) (PlacedOn d.line) fun s => s.properties.line = d.line :=
  gives_before (d.checkAttributes_faults _ _) fun _ => OpenSnippet.ofDirective_gives d

/-- **The faults of a directive.** They stand on its line, and so does what it declares. -/
theorem ofDirective_gives (d : Directive) :
    Gives (Declaration.ofDirective d) (PlacedOn d.line) fun declared => declared.line = d.line := by
  unfold Declaration.ofDirective
  split
  · exact gives_error rfl
  · exact readConfig_gives d
  · exact gives_error rfl
  · exact gives_error rfl
  · exact readLanguageLineMod_gives d
  · exact gives_error rfl
  · exact readAppliableLineMod_gives d
  · exact gives_map (readSnippet_gives d)
  · exact gives_map (readSnippet_gives d)

end Declaration

/-! ## Comments -/

theorem Header.scan_faults (line : Nat) (header : List Char) :
    Faults (Header.scan line header) (PlacedOn line) := by
  unfold Header.scan
  split
  · exact faults_ok _
  · exact faults_error rfl

/-- A comment that is a directive, but a wrong one, has its fault on the line where it starts. -/
theorem Directive.parse_gives (line : Nat) (text : String) :
    Gives (Directive.parse line text) (PlacedOn line) fun d? => ∀ d, d? = some d → d.line = line := by
  have hsome {attributes : Attributes} {label : Option BodyLabel} {body : Lines} :
      Gives (.ok (some ⟨line, attributes, label, body⟩) : Except Fault (Option Directive))
        (PlacedOn line) fun d? => ∀ d, d? = some d → d.line = line := by
    refine gives_ok ?_
    rintro _ ⟨⟩
    rfl
  unfold Directive.parse
  split
  · exact gives_ok fun d hd => by cases hd
  · split
    · exact gives_ok fun d hd => by cases hd
    · split
      · exact gives_before (Header.scan_faults line _) fun content => hsome
      · refine gives_before (Header.scan_faults line _) fun content => ?_
        split
        · exact hsome
        · split
          · exact hsome
          · exact gives_error rfl

end Doctest
