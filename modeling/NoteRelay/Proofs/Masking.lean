import NoteRelay.Rulebook

/-!
# What a rule hides

A rule that is not `real` covers the message and the reason of every failure of its kind with one
text. Violations keep their own reasons as details under any rule, so these reasons are the only
texts that come through, and validation is the only kind whose texts no rule can hide
(`covered_iff`).

The rulebooks are all that can be made from the standard one by amendments.
-/

namespace NoteRelay

-- ---------------------------------------------------------------------------
-- Failures without their texts
-- ---------------------------------------------------------------------------

def QueueFault.textless : QueueFault → QueueFault
  | unavailable _ => unavailable ""
  | codec _ => codec ""

namespace Failure

/-- The failure without its texts. What is left of a violation is its field. -/
def textless : Failure → Failure
  | validation violations => validation (violations.map fun v => ⟨v.field, ""⟩)
  | business _ _ => business "" ""
  | notFound _ => notFound ""
  | permissionDenied _ => permissionDenied ""
  | unauthenticated _ => unauthenticated ""
  | cancelled => cancelled
  | transport _ => transport ""
  | queue fault => queue fault.textless
  | internal _ => internal ""
  | unexpected _ => unexpected ""

def violations : Failure → List Violation
  | validation violations => violations
  | _ => []

theorem violations_of_kind_ne {f : Failure} (h : f.kind ≠ .validation) : f.violations = [] := by
  cases f with
  | validation => exact absurd rfl h
  | _ => rfl

theorem exists_validation_of_kind {f : Failure} (h : f.kind = .validation) :
    ∃ violations, f = validation violations := by
  cases f with
  | validation violations => exact ⟨violations, rfl⟩
  | _ => cases h

end Failure

theorem Violation.eq_of_maps {vs ws : List Violation} (hfield : vs.map field = ws.map field)
    (hreason : vs.map reason = ws.map reason) : vs = ws := by
  induction vs generalizing ws with
  | nil => simpa using hfield
  | cons v vs ih =>
    cases ws with
    | nil => simp at hfield
    | cons w ws =>
      obtain ⟨hf, hfields⟩ := List.cons.inj hfield
      obtain ⟨hr, hreasons⟩ := List.cons.inj hreason
      rw [ih hfields hreasons]
      cases v
      cases w
      simp_all

-- ---------------------------------------------------------------------------
-- Covers
-- ---------------------------------------------------------------------------

def Disclosure.cover? : Disclosure → Option String
  | real => none
  | fixed text => some text
  | masked => some mask

theorem Disclosure.texts_of_cover {d : Disclosure} {cover : String} (h : d.cover? = some cover)
    (f : Failure) : d.texts f = (cover, cover) := by
  cases d with
  | real => nomatch h
  | fixed text | masked => simp [texts, Option.some.inj h.symm]

namespace Rulebook

theorem details_of_kind_ne (b : Rulebook) (detail : DetailCode) (reason : String) {f : Failure}
    (h : f.kind ≠ .validation) : b.details detail reason f = [⟨detail, reason⟩] := by
  cases f with
  | validation => exact absurd rfl h
  | _ => rfl

/-- A covered status has no text of the failure, but the reasons of its violations. -/
theorem statusOf_of_cover {b : Rulebook} {f : Failure} {cover : String}
    (h : (b.rule f.kind).disclosure.cover? = some cover) :
    b.statusOf f =
      ⟨(b.rule f.kind).code, cover, b.details (b.rule f.kind).detail cover f⟩ := by
  simp only [statusOf, Disclosure.texts_of_cover h f]

-- ---------------------------------------------------------------------------
-- Amended rulebooks
-- ---------------------------------------------------------------------------

inductive Amendment where
  | rule (kind : Failure.Kind) (rule : Rule)
  | fieldCode (field : String) (code : DetailCode)

def amend (b : Rulebook) : Amendment → Rulebook
  | .rule kind rule => b.withRule kind rule
  | .fieldCode field code => b.withFieldCode field code

def amended (amendments : List Amendment) : Rulebook :=
  amendments.foldl amend standard

variable {b : Rulebook} {cover : String}

theorem reasons_covered_iff {f : Failure} (h : (b.rule f.kind).disclosure.cover? = some cover) :
    (∀ d ∈ (b.statusOf f).details, d.reason = cover) ↔ ∀ v ∈ f.violations, v.reason = cover := by
  rw [statusOf_of_cover h]
  by_cases hkind : f.kind = .validation
  · obtain ⟨vs, rfl⟩ := Failure.exists_validation_of_kind hkind
    simp [details, Failure.violations]
  · simp [details_of_kind_ne b _ _ hkind, Failure.violations_of_kind_ne hkind]

/-- Failures of one kind that differ in texts alone are told apart by the reasons of violations. -/
theorem statusOf_eq_iff {f g : Failure} (h : (b.rule f.kind).disclosure.cover? = some cover)
    (hkind : g.kind = f.kind) (htexts : f.textless = g.textless) :
    b.statusOf f = b.statusOf g ↔ f.violations = g.violations := by
  rw [statusOf_of_cover h, statusOf_of_cover (hkind ▸ h), hkind]
  by_cases hvalidation : f.kind = .validation
  · obtain ⟨vs, rfl⟩ := Failure.exists_validation_of_kind hvalidation
    obtain ⟨ws, rfl⟩ := Failure.exists_validation_of_kind hkind
    have hfields : vs.map Violation.field = ws.map Violation.field := by
      simpa [Failure.textless, Failure.violations, Function.comp_def] using
        congrArg (fun f => f.violations.map Violation.field) htexts
    constructor
    · -- The fields are the same anyway, and the details have the reasons.
      intro hstatus
      have hreasons : vs.map Violation.reason = ws.map Violation.reason := by
        simpa [details, Function.comp_def] using
          congrArg (fun s => s.details.map Detail.reason) hstatus
      exact Violation.eq_of_maps hfields hreasons
    · rintro (rfl : vs = ws)
      rfl
  · simp [details_of_kind_ne b _ _ hvalidation, details_of_kind_ne b _ _ (hkind ▸ hvalidation),
      Failure.violations_of_kind_ne hvalidation,
      Failure.violations_of_kind_ne (hkind ▸ hvalidation)]

/-- What a rule with a cover hides of the failures of its kind. The message is the cover, and so is
every reason but those of violations. Two failures that differ in texts alone have the same status
exactly if their violations have the same reasons; for all such failures of a kind that is so exactly
if the kind is not validation. -/
theorem covered_iff (amendments : List Amendment) {kind : Failure.Kind} {cover : String}
    (h : ((amended amendments).rule kind).disclosure.cover? = some cover) :
    (∀ f : Failure, f.kind = kind →
      ((amended amendments).statusOf f).message = cover ∧
      ((∀ d ∈ ((amended amendments).statusOf f).details, d.reason = cover) ↔
        ∀ v ∈ f.violations, v.reason = cover)) ∧
    (∀ f g : Failure, f.kind = kind → g.kind = kind → f.textless = g.textless →
      ((amended amendments).statusOf f = (amended amendments).statusOf g ↔
        f.violations = g.violations)) ∧
    ((∀ f g : Failure, f.kind = kind → g.kind = kind → f.textless = g.textless →
      (amended amendments).statusOf f = (amended amendments).statusOf g) ↔
        kind ≠ .validation) := by
  have halike : ∀ f g : Failure, f.kind = kind → g.kind = kind → f.textless = g.textless →
      ((amended amendments).statusOf f = (amended amendments).statusOf g ↔
        f.violations = g.violations) := by
    rintro f g rfl hg htexts
    exact statusOf_eq_iff h hg htexts
  refine ⟨?_, halike, ?_, ?_⟩
  · rintro f rfl
    exact ⟨by rw [statusOf_of_cover h], reasons_covered_iff h⟩
  · rintro hall rfl
    -- A reason and no reason, for one field.
    have htold := (halike (.ofField "" "") (.ofField "" "told") rfl rfl rfl).mp
      (hall _ _ rfl rfl rfl)
    exact absurd htold (by decide)
  · intro hkind f g hf hg htexts
    rw [halike f g hf hg htexts, Failure.violations_of_kind_ne (hf ▸ hkind),
      Failure.violations_of_kind_ne (hg ▸ hkind)]

def withoutNotes : List Amendment :=
  [.rule .notFound ⟨.notFound, .entityNotFound, .fixed "gone"⟩, .fieldCode "title" .invalidText,
    .rule .notFound ⟨.notFound, .entityNotFound, .masked⟩]

theorem covered_iff_notes :
    ((amended withoutNotes).rule .notFound).disclosure.cover? = some Disclosure.mask ∧
      ((amended withoutNotes).statusOf (.notFound "note 42 of user 7")).message =
        Disclosure.mask ∧
      (amended withoutNotes).statusOf (.notFound "note 42 of user 7") =
        (amended withoutNotes).statusOf (.notFound "note 43") := by
  have hcover : ((amended withoutNotes).rule .notFound).disclosure.cover? =
      some Disclosure.mask := rfl
  obtain ⟨hmessage, -, halike⟩ := covered_iff withoutNotes hcover
  exact ⟨hcover, (hmessage (.notFound "note 42 of user 7") rfl).1,
    halike.mpr (by decide) _ _ rfl rfl rfl⟩

/-- Invalid input is not quoted, or so it is meant. -/
def withoutReasons : List Amendment :=
  [.rule .validation ⟨.invalidArgument, .unknown, .masked⟩]

theorem reason_told :
    ((amended withoutReasons).rule .validation).disclosure = .masked ∧
      (Failure.ofField "text" "note 42 of user 7").textless =
        (Failure.ofField "text" "").textless ∧
      (amended withoutReasons).statusOf (.ofField "text" "note 42 of user 7") =
        ⟨.invalidArgument, Disclosure.mask, [⟨.invalidText, "note 42 of user 7"⟩]⟩ ∧
      (amended withoutReasons).statusOf (.ofField "text" "") =
        ⟨.invalidArgument, Disclosure.mask, [⟨.invalidText, ""⟩]⟩ :=
  ⟨rfl, rfl, rfl, rfl⟩

end Rulebook

end NoteRelay
