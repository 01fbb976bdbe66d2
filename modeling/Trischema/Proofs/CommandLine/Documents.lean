import Trischema.CommandLine.Running
import Trischema.Proofs.Compiling.Exports

/-!
What commands write. A listing is written just where the values in it are made for documents; artifacts and snapshots are
written where the exported values of all properties are JSON values. Freezing asks for less, for it writes the text of
every other value.
-/

namespace Trischema

open Value

section Answers

variable {α β : Type} {x : Except Error α} {Q : α → Prop} {R : β → Prop}

/-- Whether the result of a computation has a property, and its errors are no failures for what a value is. -/
def Answers (x : Except Error α) (Q : α → Prop) : Prop :=
  match x with
  | .ok a => Q a
  | .error fault => ∀ failure, fault ≠ .failure failure

theorem answers_of_ok (h : ∃ a, x = .ok a ∧ Q a) : Answers x Q := by
  obtain ⟨a,rfl,ha⟩ := h
  exact ha

theorem Answers.bind (h : Answers x Q) {f : α → Except Error β} (hnext : ∀ a, Q a → Answers (f a) R) :
    Answers (x >>= f) R := by
  cases x with
  | ok a => exact hnext a h
  | error fault => exact h

theorem Answers.map (h : Answers x Q) {f : α → β} (hf : ∀ a, Q a → R (f a)) : Answers (x.map f) R := by
  cases x with
  | ok a => exact hf a h
  | error fault => exact h

theorem answers_mapM {xs : List α} {f : α → Except Error β} (h : ∀ x ∈ xs, Answers (f x) R) :
    Answers (xs.mapM f) fun ys => ∀ y ∈ ys, R y := by
  induction xs with
  | nil => exact List.forall_mem_nil _
  | cons x xs ih =>
    obtain ⟨hx,hxs⟩ := List.forall_mem_cons.mp h
    rw [List.mapM_cons]
    refine hx.bind fun y hy => (ih hxs).bind fun ys hys => ?_
    exact List.forall_mem_cons.mpr ⟨hy,hys⟩

theorem Answers.not_failure (h : Answers x Q) (failure : Failure) : x ≠ .error (.failure failure) := by
  rintro rfl
  exact h failure rfl

end Answers

namespace Registry

variable {P : Value → Prop} {r frozen : Registry} {c : Class Value} {d : Descriptor} {s : Settings} {name fingerprint : String}

theorem document_iff {v : Value} : (∃ text, document v = .ok text) ↔ v.Fits .refuse := exists_toJsonText _

/-- The listing of a class is written just where its enumerated values, its defaults and what its links tell can be. -/
theorem describeText_iff (hentity : r.entity name = .ok c) (hd : r.descriptor (.cls c) = .ok d) :
    (∃ text, r.describeText name = .ok text) ↔ ∀ p ∈ d.properties, p.Tells (Fits .refuse) := by
  rw [← Descriptor.toRecord_tells byParts_fits,describeText,hentity,ok_bind,hd,ok_bind]
  constructor
  · rintro ⟨text,htext⟩
    obtain ⟨v,hv,htext⟩ := bind_eq_ok.mp htext
    exact ⟨v,hv,document_iff.mp ⟨text,htext⟩⟩
  · rintro ⟨v,hv,hfits⟩
    obtain ⟨text,htext⟩ := document_iff.mpr hfits
    exact ⟨text,bind_eq_ok.mpr ⟨v,hv,htext⟩⟩

theorem document_answers {v : Value} (h : v.isJson = true) : Answers (document v) fun _ => True := by
  obtain ⟨text,htext⟩ := document_iff.mpr (fits_of_isJson h)
  exact answers_of_ok ⟨text,htext,trivial⟩

theorem entity_answers : Answers (r.entity name) (· ∈ r.classes) := by
  rw [entity]
  cases hfound : r.lookup? name with
  | some c => exact List.mem_of_find?_eq_some hfound
  | none =>
    intro failure h
    cases h

/-- Compiling in a complete registry never fails for what a value is. -/
theorem Complete.compile_answers (h : r.Complete) (hc : c ∈ r.classes)
    (maxDepth : Option Int) (backend : Backend) :
    Answers (Artifact.compile r (.ok s) (.cls c) maxDepth backend).result fun _ => True := by
  have hgiven (maxDepth : Option Nat) :
      Answers (Artifact.compile r (.ok s) (.cls c) (maxDepth.map Int.ofNat) backend).result fun _ => True := by
    obtain ⟨d,hcompiles⟩ := h.compiles s maxDepth hc
    cases hresult : (Artifact.compile r (.ok s) (.cls c) (maxDepth.map Int.ofNat) backend).result with
    | ok artifact => trivial
    | error fault =>
      intro failure hfailure
      cases backend with
      | document =>
        obtain ⟨_,_,_,_,_,_,hfault⟩ := hcompiles.documentError fault hresult
        cases hfault.symm.trans hfailure
      | graph =>
        obtain ⟨_,_,_,hfault⟩ := hcompiles.graphError fault hresult
        cases hfault.symm.trans hfailure
      | relational =>
        obtain ⟨t,ht⟩ := hcompiles.relational
        cases ht.symm.trans hresult
  rcases maxDepth with _ | (n | n)
  · exact hgiven none
  · exact hgiven (some n)
  · have hlimit : Settings.limit (.ok s) (some (.negSucc n)) = .error (.value (.negativeDepth (.negSucc n))) :=
      if_pos (Int.negSucc_lt_zero n)
    cases backend with
    | document =>
      rw [Artifact.compile,Document.compile_class,hlimit]
      intro failure hfailure
      cases hfailure
    | graph => exact hgiven none
    | relational =>
      unfold Artifact.compile Relational.compile
      rw [hlimit]
      intro failure hfailure
      cases hfailure

theorem describeText_answers (h : r.Complete) (hall : r.EveryProperty (·.Tells (·.isJson = true))) :
    Answers (r.describeText name) fun _ => True := by
  refine entity_answers.bind fun c hc => ?_
  obtain ⟨d,hd,_⟩ := h.described (isRegistered_of_mem (List.mem_mergeSort.mpr hc))
  have htells : ∀ p ∈ d.properties, p.Tells (·.isJson = true) := hall.described hd
  rw [hd,ok_bind]
  exact (answers_of_ok ((Descriptor.toRecord_tells byParts_isJson).mpr htells)).bind fun v hv => document_answers hv

section Exporting

variable (h : r.Complete) (hall : r.EveryProperty (·.Exports (·.isJson = true)))

include h hall

theorem artifact_answers (hc : c ∈ r.classes) (maxDepth : Option Int) (backend : Backend) :
    Answers ((Artifact.compile r (.ok s) (.cls c) maxDepth backend).result >>= Artifact.toRecord) (·.isJson = true) := by
  have hcompile := h.compile_answers (s := s) hc maxDepth backend
  cases hresult : (Artifact.compile r (.ok s) (.cls c) maxDepth backend).result with
  | ok artifact => exact answers_of_ok (Artifact.compile_exports byParts_isJson hall hresult)
  | error fault =>
    rw [hresult] at hcompile
    exact hcompile

theorem compileText_answers (backend : Backend) (maxDepth : Option Int) :
    Answers (r.compileText (.ok s) name backend maxDepth) fun _ => True := by
  refine entity_answers.bind fun c hc => ?_
  rw [← bind_assoc]
  exact (artifact_answers h hall hc maxDepth backend).bind fun v hv => document_answers hv

theorem artifactsOf_answers (hc : c ∈ r.classes) : Answers (r.artifactsOf (.ok s) c) (·.2.isJson = true) := by
  obtain ⟨d,hd,_⟩ := h.described (isRegistered_of_mem (List.mem_mergeSort.mpr hc))
  rw [artifactsOf,hd,ok_bind]
  refine (answers_mapM (R := (·.2.isJson = true)) fun b _ => ?_).bind fun artifacts hartifacts => ?_
  · rw [← bind_assoc]
    exact (artifact_answers h hall hc none b).bind fun v hv => hv
  · exact (byParts_isJson.record artifacts).mpr hartifacts

theorem snapshotText_answers : Answers (r.snapshotText (.ok s)) fun _ => True := by
  have hexport : Answers r.toRecord (·.isJson = true) :=
    answers_of_ok ((h.toRecord_tells byParts_isJson).mpr fun c hc d hd p hp => (hall c hc d hd p hp).tells)
  refine (answers_mapM fun c hc => artifactsOf_answers h hall hc).bind fun compiled hcompiled => ?_
  refine hexport.bind fun exported hexported => document_answers ?_
  rw [byParts_isJson.record_iff]
  simp [isJson,hexported,byParts_isJson.keyed hcompiled]

theorem run_answers (hfrozen : r.frozen = true) (command : Command) :
    Answers (command.run (.ok s) r).2 fun _ => True := by
  cases command with
  | compile name backend maxDepth =>
    exact (compileText_answers h hall backend maxDepth).map fun _ _ => trivial
  | describe name => exact (describeText_answers h fun c hc d hd p hp => (hall c hc d hd p hp).tells).map fun _ _ => trivial
  | snapshot output =>
    have hkept : r.ensureFrozen = .ok r := if_pos hfrozen
    rw [Command.run,hkept]
    exact (snapshotText_answers h hall).map fun _ _ => trivial

end Exporting

/-- The listing of a class is made of JSON values just where what its properties tell is, and is written just where that
can be written. Where all exported values are JSON values, so are the exports of artifacts, and once the registry is
frozen no command fails for what a value is. -/
theorem exports_written (r : Registry) (s : Settings) :
    (∀ c d, r.descriptor (.cls c) = .ok d →
      ((∃ v, d.toRecord = .ok v ∧ v.isJson = true) ↔ ∀ p ∈ d.properties, p.Tells (·.isJson = true)) ∧
      ∀ name, r.entity name = .ok c →
        ((∃ text, r.describeText name = .ok text) ↔ ∀ p ∈ d.properties, p.Tells (Fits .refuse))) ∧
    (r.EveryProperty (·.Exports (·.isJson = true)) →
      (∀ c ∈ r.classes, ∀ maxDepth backend artifact,
        (Artifact.compile r (.ok s) (.cls c) maxDepth backend).result = .ok artifact →
          ∃ v, artifact.toRecord = .ok v ∧ v.isJson = true) ∧
      ∀ (before : Registry) fingerprint, before.freeze = .ok (fingerprint, r) → ∀ (command : Command) failure,
        (command.run (.ok s) r).2 ≠ .error (.failure failure)) := by
  refine ⟨fun c d hd => ⟨Descriptor.toRecord_tells byParts_isJson,fun name hentity => describeText_iff hentity hd⟩,
    fun hall => ⟨fun c hc maxDepth backend artifact h => Artifact.compile_exports byParts_isJson hall h,?_⟩⟩
  intro before fingerprint hfreeze command
  obtain ⟨record,hrecord⟩ := freeze_toRecord hfreeze
  obtain ⟨_,_,rfl⟩ := freeze_eq_ok.mp hfreeze
  exact (run_answers (complete_of_toRecord hrecord) hall rfl command).not_failure

theorem parcels_exports (hP : ByParts P) : parcels.EveryProperty (·.Exports P) := by
  obtain ⟨hcity,hid,hsize,haddress,hlink⟩ := parcels_everyProperty.mp (parcels_tells hP)
  have hplain {p : Property} (htells : p.Tells P) (hvalues : p.classification.bind Classification.values? = none)
      (hrel : p.relationship = none) : p.Exports P := by
    refine ⟨htells,fun k hk vs hvs => ?_,fun rel h => ?_⟩
    · rw [hk,Option.bind_some,hvs] at hvalues
      cases hvalues
    · rw [hrel] at h
      cases h
  have hsizes : parcelSize.Exports P := by
    refine ⟨hsize,fun k hk vs hvs => ?_,fun rel hrel => ?_⟩
    · cases hk
      cases hvs
      exact hsize.enum _ rfl
    · cases hrel
  have hlinks : parcelLink.Exports P := by
    refine ⟨hlink,fun k hk vs hvs => ?_,fun rel hrel => ?_⟩
    · cases hk
      cases hvs
    · cases hrel
      refine ⟨fun kind hkind => ?_,hP.null,fun htable => ?_⟩
      · cases hkind
        exact ⟨_,rfl,hP.str _⟩
      · cases htable
  exact parcels_everyProperty.mpr ⟨hplain hcity rfl rfl,hplain hid rfl rfl,hsizes,hplain haddress rfl rfl,hlinks⟩

/-- Parcels have an address embedded and their sizes enumerated, and all that commands write of them can be written. -/
theorem exports_written_parcels : ∃ fingerprint frozen, parcels.freeze = .ok (fingerprint, frozen) ∧
    (∃ v, parcelDescriptor.toRecord = .ok v ∧ v.isJson = true) ∧
    (∃ text, frozen.describeText "Parcel" = .ok text) ∧
    (∀ maxDepth backend artifact,
      (Artifact.compile frozen (.ok Settings.defaults) (.cls parcel) maxDepth backend).result = .ok artifact →
        ∃ v, artifact.toRecord = .ok v ∧ v.isJson = true) ∧
    ∀ (command : Command) failure, (command.run (.ok Settings.defaults) frozen).2 ≠ .error (.failure failure) := by
  obtain ⟨fingerprint,hfreeze⟩ := parcels_freeze
  have hd : (parcels.withFingerprint (some fingerprint)).descriptor (.cls parcel) = .ok parcelDescriptor := by
    rw [withFingerprint_descriptor,descriptor_of_registered rfl,parcels_merge]
  have hparcel : parcel ∈ parcels.classes := List.mem_cons_of_mem _ List.mem_cons_self
  obtain ⟨hlisted,hexported⟩ := exports_written (parcels.withFingerprint (some fingerprint)) Settings.defaults
  obtain ⟨hrecord,hdescribe⟩ := hlisted parcel _ hd
  obtain ⟨hartifacts,hcommands⟩ := hexported (withFingerprint_everyProperty.mpr (parcels_exports byParts_isJson))
  refine ⟨fingerprint,_,hfreeze,?_,?_,hartifacts parcel hparcel,hcommands _ fingerprint hfreeze⟩
  · exact hrecord.mpr (parcels_tells byParts_isJson parcel hparcel _ parcels_merge)
  · exact (hdescribe "Parcel" rfl).mpr (parcels_tells byParts_fits parcel hparcel _ parcels_merge)

/-- What declaring a due date with a default leaves of parts. -/
def datedParts : Registry :=
  { declarations := [(part, [("due", { type := some (.builtin .date), default := some (.date ⟨2024, 2, 29⟩) })])] }

def due : Property where
  key := "due"
  type := .builtin .date
  default := some (.date ⟨2024, 2, 29⟩)
  classification := some (.single (.primitive .date))

/-- Parts with a due date are frozen, but their listing is not written. -/
theorem exports_written_dated :
    ({} : Registry).registerProperty (.cls part) (.str "due")
      [("type", .type (.builtin .date)), ("default", .date ⟨2024, 2, 29⟩)] = .ok datedParts ∧
    ¬ ∀ (r frozen : Registry) fingerprint, r.freeze = .ok (fingerprint, frozen) → ∀ (command : Command) failure,
      (command.run (.ok Settings.defaults) frozen).2 ≠ .error (.failure failure) := by
  refine ⟨by with_unfolding_all rfl,fun h => ?_⟩
  have hd : datedParts.merge part = .ok (partDescriptor due) := by with_unfolding_all rfl
  have htells : due.Tells (Fits .asText) := by
    refine ⟨fun _ h => ?_,fun v hv => ?_,fun _ h => ?_⟩
    · cases h
    · cases hv
      exact ⟨_,rfl⟩
    · cases h
  obtain ⟨fingerprint,hfreeze⟩ := parts_freeze rfl rfl hd rfl htells
  have hlisted : ∃ v, (partDescriptor due).toRecord = .ok v ∧ v.Fits .asText := by
    refine (Descriptor.toRecord_tells byParts_fits).mpr fun p hp => ?_
    rcases mem_partDescriptor.mp hp with rfl | rfl
    · exact ownIdentifier_tells byParts_fits
    · exact htells
  obtain ⟨v,hv,_⟩ := hlisted
  have hdescriptor : (datedParts.withFingerprint (some fingerprint)).descriptor (.cls part) = .ok (partDescriptor due) := by
    rw [withFingerprint_descriptor,descriptor_of_registered rfl,hd]
  have hwritten : (datedParts.withFingerprint (some fingerprint)).describeText "Part" = document v := by
    rw [describeText,show entity _ "Part" = .ok part from rfl,ok_bind,hdescriptor,ok_bind,hv,ok_bind]
  cases hdocument : document v with
  | ok text =>
    have hentity : (datedParts.withFingerprint (some fingerprint)).entity "Part" = .ok part := rfl
    have hfits := (describeText_iff hentity hdescriptor).mp ⟨text,hwritten.trans hdocument⟩
    obtain ⟨x,hx⟩ := (hfits due (List.mem_cons_of_mem _ List.mem_cons_self)).default _ rfl
    cases hx
  | error fault =>
    -- the default itself is what a document cannot hold
    have hkind : fault = .failure .kind := Json.ofValue_error (map_eq_error.mp hdocument)
    refine h datedParts _ fingerprint hfreeze (.describe "Part") .kind ?_
    rw [Command.run,hwritten,hdocument,hkind]
    rfl

end Registry

end Trischema
