import Trischema.Proofs.Classifying

/-!
The types that a registration accepts, and those that are classified. Both walk down the arrays of a type to what they
hold in the end. A registration asks only whether this can be the type of an element, or is missing; to be classified it
has to be there, in one array at most, and a class has to be embeddable.
-/

namespace Trischema

namespace TypeExpr

/-- How many arrays of a type are within one another, and what they hold in the end. -/
def contents (t : TypeExpr Value) : Nat × TypeExpr Value :=
  match _unwrapped : t.unwrapOptional with
  | .error _ => (0, t)
  | .ok (u, _) =>
    match _form : u.arrayForm with
    | .ok (.typed e) => (e.contents.1 + 1, e.contents.2)
    | .ok .untyped => (1, .builtin .object)
    | _ => (0, u)
termination_by sizeOf t
decreasing_by all_goals
  have := sizeOf_unwrapOptional _unwrapped
  have := sizeOf_arrayForm _form
  omega

/-- Whether a type that is no array can be that of an element: a class, a literal type or a dictionary. -/
def isElement : TypeExpr Value → Bool
  | cls _ | literal _ => true
  | t => t.isMapping

variable {t u : TypeExpr Value} {b : Bool} {form : ArrayForm}

theorem contents_of_form (hunwrap : t.unwrapOptional = .ok (u, b)) : u.arrayForm = .ok form →
    t.contents = match form with
      | .typed e => (e.contents.1 + 1, e.contents.2)
      | .untyped => (1, .builtin .object)
      | .none => (0, u) := by
  intro hform
  rw [contents]
  split
  · rename_i hfault
    cases hfault.symm.trans hunwrap
  · rename_i hunwrap'
    cases hunwrap'.symm.trans hunwrap
    split
    · rename_i hform'
      cases hform'.symm.trans hform
      rfl
    · rename_i hform'
      cases hform'.symm.trans hform
      rfl
    · rename_i htyped huntyped
      cases form with
      | typed e => exact absurd hform (htyped e)
      | untyped => exact absurd hform huntyped
      | none => rfl

/-- What is accepted without a look at its form is no array. -/
theorem arrayForm_of_plain (h : (t.isAbsent || (Scalar.ofType? t).isSome) = true) :
    t.unwrapOptional = .ok (t, false) ∧ t.arrayForm = .ok .none := by
  cases t with
  | absent => exact ⟨rfl,rfl⟩
  | cls c =>
    refine ⟨rfl,?_⟩
    obtain ⟨name,constants⟩ := c
    cases name with
    | defined => rfl
    | builtin b => cases b <;> first | rfl | cases h
  | _ => cases h

theorem isSupported_of_form (hunwrap : t.unwrapOptional = .ok (u, b)) : u.arrayForm = .ok form →
    t.isSupported = match form with
      | .typed e => e.isSupported
      | .untyped => true
      | .none => t.isAbsent || u.isElement := by
  intro hform
  rw [isSupported]
  split
  · rename_i hplain
    obtain ⟨hself,hnone⟩ := arrayForm_of_plain hplain
    cases hself.symm.trans hunwrap
    cases hnone.symm.trans hform
    cases t with
    | absent | cls => rfl
    | _ => cases hplain
  · rename_i hplain
    rw [Bool.or_eq_true,not_or,Bool.not_eq_true] at hplain
    rw [hplain.1]
    split
    · rename_i hfault
      cases hfault.symm.trans hunwrap
    · rename_i hunwrap'
      cases hunwrap'.symm.trans hunwrap
      split
      · rename_i hfault
        cases hfault.symm.trans hform
      · rename_i hform'
        cases hform'.symm.trans hform
        rfl
      · rename_i hform'
        cases hform'.symm.trans hform
        rfl
      · rename_i hform'
        cases hform'.symm.trans hform
        cases u <;> rfl

/-- What is accepted has a form. -/
theorem exists_form_of_isSupported (h : t.isSupported = true) :
    ∃ u b form, t.unwrapOptional = .ok (u, b) ∧ u.arrayForm = .ok form := by
  rw [isSupported] at h
  split at h
  · rename_i hplain
    obtain ⟨hself,hnone⟩ := arrayForm_of_plain hplain
    exact ⟨_,_,_,hself,hnone⟩
  · split at h
    · cases h
    · rename_i hunwrap
      split at h
      · cases h
      · rename_i hform
        exact ⟨_,_,_,hunwrap,hform⟩
      · rename_i hform
        exact ⟨_,_,_,hunwrap,hform⟩
      · rename_i hform
        exact ⟨_,_,_,hunwrap,hform⟩

end TypeExpr

/-- What is left to refuse of an accepted type when it is classified: elements without a type, a class that is not
embeddable, and arrays of arrays. -/
inductive Unclassified (embeddable : Class Value → Bool) (t : TypeExpr Value) : DefinitionFault → Prop
  | untyped (h : t.contents.2 = .absent) : Unclassified embeddable t .noDeclaredType
  | unregistered (c : Class Value) (h : t.contents.2 = .cls c) (hc : embeddable c = false) :
    Unclassified embeddable t (.unsupportedDeclaredType (TypeExpr.cls c).listing)
  | nested (listing : String) (h : 2 ≤ t.contents.1) : Unclassified embeddable t (.nestedArray listing)

variable {embeddable : Class Value → Bool} {t u : TypeExpr Value} {fault : DefinitionFault}

namespace Element

theorem classify_element {e : Element} (h : classify embeddable none u = .ok e) : u.isElement = true := by
  unfold classify at h
  split at h
  · rename_i hgiven
    cases hgiven
  · rename_i hvalues
    cases u with
    | cls | literal => rfl
    | _ => cases hvalues
  · split at h
    · rename_i hscalar
      cases u with
      | cls => rfl
      | _ => cases hscalar
    · split at h
      · rfl
      · cases h
      · split at h
        · rename_i hmapping
          cases u with
          | cls | literal => rfl
          | _ => exact hmapping
        · cases h

/-- Of what can be that of an element only a class that is not embeddable is refused. -/
theorem classify_fault (hu : (u.isAbsent || u.isElement) = true) (h : classify embeddable none u = .error fault) :
    u = .absent ∧ fault = .noDeclaredType ∨
      ∃ c, u = .cls c ∧ embeddable c = false ∧ fault = .unsupportedDeclaredType (TypeExpr.cls c).listing := by
  unfold classify at h
  split at h
  · cases h
  · cases h
  · rename_i hvalues
    split at h
    · cases h
    · split at h
      · rename_i c _
        split at h
        · cases h
        · split at h
          · cases h
          · rename_i hc
            cases h
            exact .inr ⟨c,rfl,Bool.not_eq_true _ ▸ hc,rfl⟩
      · cases h
        exact .inl ⟨rfl,rfl⟩
      · rename_i hnotClass hnotAbsent
        split at h
        · cases h
        · rename_i hmapping
          cases u with
          | cls c => exact absurd rfl (hnotClass c)
          | absent => exact absurd rfl hnotAbsent
          | literal => cases hvalues
          | _ => exact absurd hu hmapping

end Element

namespace Classification

/-- The number of arrays that a property is kept in. -/
def arrays : Classification → Nat
  | array _ => 1
  | _ => 0

theorem ofType_form {k : Classification} (h : ofType embeddable none t = .ok k) :
    t.isSupported = true ∧ t.contents.2 ≠ .absent ∧ t.contents.1 = k.arrays := by
  fun_induction ofType embeddable none t generalizing k with
  | case1 t fault hunwrap => cases h
  | case2 t u _ hunwrap fault hform => cases h
  | case3 t u _ hunwrap hform =>
    obtain ⟨e,he,rfl⟩ := map_eq_ok.mp h
    have helement := Element.classify_element he
    rw [TypeExpr.isSupported_of_form hunwrap hform,TypeExpr.contents_of_form hunwrap hform]
    refine ⟨?_,?_,rfl⟩
    · simp only [helement,Bool.or_true]
    · rintro rfl
      cases helement
  | case4 t u _ hunwrap hform =>
    obtain ⟨e,he,rfl⟩ := map_eq_ok.mp h
    rw [TypeExpr.isSupported_of_form hunwrap hform,TypeExpr.contents_of_form hunwrap hform]
    exact ⟨rfl,(fun h => by cases h),rfl⟩
  | case5 t u _ hunwrap element hform fault helement ih => cases h
  | case6 t u _ hunwrap element hform inner helement ih =>
    cases h
    obtain ⟨hsupported,htyped,hdepth⟩ := ih helement
    rw [TypeExpr.isSupported_of_form hunwrap hform,TypeExpr.contents_of_form hunwrap hform]
    exact ⟨hsupported,htyped,congrArg (· + 1) hdepth⟩
  | case7 t u _ hunwrap element hform k' helement hnested ih => cases h

/-- What is accepted and not classified. -/
theorem ofType_fault (hsupported : t.isSupported = true) (h : ofType embeddable none t = .error fault) :
    Unclassified embeddable t fault := by
  fun_induction ofType embeddable none t generalizing fault with
  | case1 t fault' hunwrap =>
    obtain ⟨u,b,form,hok,_⟩ := TypeExpr.exists_form_of_isSupported hsupported
    cases hok.symm.trans hunwrap
  | case2 t u _ hunwrap fault' hform =>
    obtain ⟨u',b,form,hunwrap',hok⟩ := TypeExpr.exists_form_of_isSupported hsupported
    cases hunwrap'.symm.trans hunwrap
    cases hok.symm.trans hform
  | case3 t u _ hunwrap hform =>
    have hcontents := TypeExpr.contents_of_form hunwrap hform
    rw [TypeExpr.isSupported_of_form hunwrap hform] at hsupported
    have helement : (u.isAbsent || u.isElement) = true := by
      cases t with
      | absent =>
        cases hunwrap
        rfl
      | _ => exact Bool.or_eq_true_iff.mpr (.inr hsupported)
    rcases Element.classify_fault helement (map_eq_error.mp h) with ⟨rfl,rfl⟩ | ⟨c,rfl,hc,rfl⟩
    · exact .untyped (by rw [hcontents])
    · exact .unregistered c (by rw [hcontents]) hc
  | case4 t u _ hunwrap hform =>
    cases h
  | case5 t u _ hunwrap element hform fault' helement ih =>
    cases h
    rw [TypeExpr.isSupported_of_form hunwrap hform] at hsupported
    have hcontents := TypeExpr.contents_of_form hunwrap hform
    cases ih hsupported helement with
    | untyped hinner => exact .untyped (by rw [hcontents,hinner])
    | unregistered c hinner hc => exact .unregistered c (by rw [hcontents,hinner]) hc
    | nested listing hdepth => exact .nested listing (by rw [hcontents]; exact Nat.le_succ_of_le hdepth)
  | case6 t u _ hunwrap element hform inner helement ih => cases h
  | case7 t u _ hunwrap element hform k' hnested helement ih =>
    cases h
    have hcontents := TypeExpr.contents_of_form hunwrap hform
    refine .nested _ ?_
    obtain ⟨_,_,hdepth⟩ := ofType_form helement
    rw [hcontents]
    cases k' with
    | single inner => exact absurd rfl (hnested inner)
    | array inner => exact Nat.le_of_eq (congrArg (· + 1) hdepth.symm)
    | relationship rel => exact absurd helement ofType_ne_relationship

/-- Where every class is embeddable, a type is classified exactly when a registration accepts it, the type of its elements
is not missing and no array is within another. Whatever classes are embeddable, a type that was accepted is refused for one
of these two reasons, or for a class that is not embeddable. -/
theorem supported_classified (t : TypeExpr Value) :
    ((∃ k, ofProperty (fun _ => true) none none t = .ok k) ↔
      t.isSupported = true ∧ t.contents.2 ≠ .absent ∧ t.contents.1 ≤ 1) ∧
    (t.isSupported = true → ∀ embeddable fault, ofProperty embeddable none none t = .error fault →
      Unclassified embeddable t fault) := by
  refine ⟨⟨?_,?_⟩,fun hsupported embeddable fault => ofType_fault hsupported⟩
  · rintro ⟨k,hk⟩
    obtain ⟨hsupported,htyped,hdepth⟩ := ofType_form hk
    refine ⟨hsupported,htyped,?_⟩
    rw [hdepth]
    cases k with
    | array => exact Nat.le_refl 1
    | single | relationship => exact Nat.zero_le 1
  · rintro ⟨hsupported,htyped,hdepth⟩
    refine exists_ok_of_no_error fun fault hfault => ?_
    cases ofType_fault hsupported hfault with
    | untyped h => exact htyped h
    | unregistered c h hc => cases hc
    | nested listing h => omega

/-- A seat of a theatre. -/
def seat : Class Value := ⟨.defined "Seat" 0 [.builtin .object], none⟩

/-- The seats of a row, or nothing. -/
def seats : TypeExpr Value := .union .named [.generic .list [.cls seat], .builtin .unit]

/-- Rows of seats by their letters. -/
def rows : TypeExpr Value := .generic .list [.generic .list [.builtin .text]]

/-- An array that does not say what it holds. -/
def untypedArray : TypeExpr Value := .shorthand [.absent]

/-- A row of seats is classified where seats are embeddable, and refused for the class of the seats where they are not. -/
theorem supported_classified_seats : seats.isSupported = true ∧
    (∃ k, ofProperty (fun _ => true) none none seats = .ok k) ∧
    ∀ fault, ofProperty (fun _ => false) none none seats = .error fault → Unclassified (fun _ => false) seats fault := by
  have hsupported : seats.isSupported = true := by decide +kernel
  have hseat : (TypeExpr.cls seat : TypeExpr Value).contents = (0, .cls seat) :=
    TypeExpr.contents_of_form (show (TypeExpr.cls seat).unwrapOptional = .ok (.cls seat, false) from rfl) rfl
  have hcontents : seats.contents = ((TypeExpr.cls seat).contents.1 + 1, (TypeExpr.cls seat).contents.2) :=
    TypeExpr.contents_of_form (show seats.unwrapOptional = .ok (.generic .list [.cls seat], true) from rfl) rfl
  rw [hseat] at hcontents
  obtain ⟨hiff,hfaults⟩ := supported_classified seats
  rw [hcontents] at hiff
  exact ⟨hsupported,hiff.mpr ⟨hsupported,(fun h => by cases h),Nat.le_refl 1⟩,hfaults hsupported _⟩

/-- Arrays of arrays and arrays of nothing in particular are accepted, and never classified. -/
theorem supported_unclassified :
    rows.isSupported = true ∧ (¬∃ k, ofProperty (fun _ => true) none none rows = .ok k) ∧
    untypedArray.isSupported = true ∧ ¬∃ k, ofProperty (fun _ => true) none none untypedArray = .ok k := by
  have hrefused {t : TypeExpr Value} (h : (ofProperty (fun _ => true) none none t).isOk = false) :
      ¬∃ k, ofProperty (fun _ => true) none none t = .ok k := by
    rintro ⟨k,hk⟩
    rw [hk] at h
    cases h
  exact ⟨by decide +kernel,hrefused (by decide +kernel),by decide +kernel,hrefused (by decide +kernel)⟩

end Classification

end Trischema
