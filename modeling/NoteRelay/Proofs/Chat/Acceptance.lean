import NoteRelay.Chat.Acceptance
import NoteRelay.Proofs.Violations

/-!
# Which requests are accepted

A request becomes a message exactly if both of its lengths are in bounds and its text is not blank,
and then the message has the text as it came. Otherwise it is told what is wrong: one detail for each
length that is out of bounds, and the blank text only where both are in bounds (`accepted_iff`).
-/

namespace NoteRelay

theorem Uuid.hyphenated_ne_empty (u : Uuid) : u.hyphenated ≠ "" := by
  intro h
  have hchars : u.hyphenatedChars = [] := by
    simpa [hyphenated] using congrArg String.toList h
  simp [hyphenatedChars] at hchars

namespace Chat

-- ---------------------------------------------------------------------------
-- What is asked of a request
-- ---------------------------------------------------------------------------

namespace Payload

variable (p : Payload)

def IdFits : Prop :=
  p.correlationId.length ≤ 64
  deriving Decidable

def TextFits : Prop :=
  3 ≤ p.text.length ∧ p.text.length ≤ 1024
  deriving Decidable

def IsLegible : Prop :=
  ∃ c ∈ p.text.toList, Text.isBlank c = false

/-- What is told of the lengths that are out of bounds. -/
def lengthDetails : List Detail :=
  (if p.IdFits then []
    else [⟨.invalidCorrelationId, "correlation id must be at most 64 characters"⟩]) ++
  if p.TextFits then [] else [⟨.invalidText, "text must be between 3 and 1024 characters"⟩]

/-- The violations behind these details. -/
def misfits : List Violation :=
  (if p.IdFits then [] else [⟨"correlation_id", correlationIdRule.reason⟩]) ++
  if p.TextFits then [] else [⟨"text", textRule.reason⟩]

theorem isLegible_iff : p.IsLegible ↔ Text.allBlank p.text = false := by
  simp [IsLegible, Text.allBlank]

theorem misfits_sorted : p.misfits.Pairwise fun v w => v.field < w.field := by
  have hlt : "correlation_id" < "text" := by decide
  unfold misfits
  split <;> split <;> simp [-String.lt_iff_ltb, hlt]

theorem details_misfits :
    (p.misfits.map fun v => (⟨Rulebook.standardFieldCode v.field, v.reason⟩ : Detail)) =
      p.lengthDetails := by
  unfold misfits lengthDetails
  split <;> split <;> rfl

theorem leaves_brokenHeader : Violations.leaves.ofFields p.brokenHeader =
    if p.IdFits then [] else [⟨"correlation_id", correlationIdRule.reason⟩] := by
  unfold brokenHeader
  split
  · rename_i hfits
    exact (if_pos hfits).symm
  · rename_i hlong
    exact (if_neg hlong).symm

theorem leaves_brokenText : Violations.leaves.ofFields p.brokenText =
    if p.TextFits then [] else [⟨"text", textRule.reason⟩] := by
  unfold brokenText
  split
  · rename_i hfits
    exact (if_pos hfits).symm
  · rename_i hunfit
    exact (if_neg hunfit).symm

theorem leaves_violations : Violations.leaves.ofFields p.violations = p.misfits := by
  rw [misfits, ← leaves_brokenHeader, ← leaves_brokenText]
  simp only [violations, Violations.ofFields_eq_flatMap, List.flatMap_append]

end Payload

namespace Request

variable {r : Request} {fresh : CorrelationId} {fields : List (String × Violations)}

-- ---------------------------------------------------------------------------
-- The lengths
-- ---------------------------------------------------------------------------

theorem violations_eq_nil_iff :
    r.violations = [] ↔ r.message.IdFits ∧ r.message.TextFits := by
  by_cases hid : r.message.IdFits <;> by_cases htext : r.message.TextFits <;>
    simp_all [violations, Payload.violations, Payload.brokenHeader, Payload.brokenText,
      Payload.IdFits, Payload.TextFits]

theorem leaves_violations : Violations.leaves.ofFields r.violations = r.message.misfits := by
  rw [← Payload.leaves_violations]
  unfold violations
  split
  · rename_i h
    rw [h]
  · simp [Violations.leaves.ofFields, Violations.leaves]

/-- The lengths out of bounds have different names, so that only one order of them is sorted. -/
theorem flatten_of_reordered (h : Violations.Reordered r.violations fields) :
    Violations.flatten fields = r.message.misfits := by
  have hperm : (Violations.flatten fields).Perm r.message.misfits := by
    rw [← leaves_violations]
    exact Violations.flatten_perm.trans h.leaves_perm.symm
  have hnames : (r.message.misfits.map Violation.field).Nodup :=
    List.pairwise_map.mpr (r.message.misfits_sorted.imp fun hlt => hlt.ne)
  refine hperm.eq_of_pairwise ?_ Violations.flatten_sorted
    (r.message.misfits_sorted.imp fun hlt => hlt.le)
  intro v w hv hw hle hle'
  exact List.inj_on_of_nodup_map hnames (hperm.mem_iff.mp hv) hw (le_antisymm hle hle')

theorem toFailure_of_reordered (h : Violations.Reordered r.violations fields) :
    Violations.toFailure fields = .validation r.message.misfits := by
  rw [Violations.toFailure, flatten_of_reordered h]

-- ---------------------------------------------------------------------------
-- Both steps
-- ---------------------------------------------------------------------------

/-- What becomes of a request, and why. -/
inductive Verdict (r : Request) (fresh : CorrelationId) : Except Failure ChatMessage → Prop where
  | accepted :
      r.message.IdFits → r.message.TextFits → r.message.IsLegible →
      Verdict r fresh (.ok
        ⟨if r.message.correlationId = "" then fresh else ⟨r.message.correlationId⟩,
          r.message.text⟩)
  | blank :
      r.message.IdFits → r.message.TextFits → ¬ r.message.IsLegible →
      Verdict r fresh (.error (.ofField "text" "empty text"))
  | misfit :
      ¬(r.message.IdFits ∧ r.message.TextFits) →
      Verdict r fresh (.error (.validation r.message.misfits))

theorem verdict (r : Request) (fresh : CorrelationId) : Verdict r fresh (r.accept fresh) := by
  by_cases hfits : r.message.IdFits ∧ r.message.TextFits
  · have haccept : r.accept fresh =
        (r.message.toMessage fresh).mapError Failure.ofRejection := by
      rw [accept, violations_eq_nil_iff.mpr hfits]
    have hmessage : r.message.toMessage fresh = ChatMessage.ofParts
        (if r.message.correlationId = "" then fresh else ⟨r.message.correlationId⟩)
        r.message.text := by
      by_cases hid : r.message.correlationId = "" <;>
        simp [Payload.toMessage, CorrelationId.parse, hid, bind, Except.bind]
    rw [haccept, hmessage, ChatMessage.ofParts]
    split
    · rename_i hblank
      exact .blank hfits.1 hfits.2 (by simp [Payload.isLegible_iff, hblank])
    · rename_i hlegible
      exact .accepted hfits.1 hfits.2 (by simpa [Payload.isLegible_iff] using hlegible)
  · have hviolations : r.violations ≠ [] := by
      rwa [Ne, violations_eq_nil_iff]
    have haccept : r.accept fresh = .error (Violations.toFailure r.violations) := by
      unfold accept
      split
      · contradiction
      · rfl
    rw [haccept, toFailure_of_reordered (.fields (.refl _))]
    exact .misfit hfits

theorem takesFreshId_iff (h : r.message.IdFits ∧ r.message.TextFits) :
    r.takesFreshId = true ↔ r.message.correlationId = "" := by
  simp [takesFreshId, violations_eq_nil_iff.mpr h]

theorem details_misfit (p : Payload) :
    (Rulebook.standard.statusOf (.validation p.misfits)).details = p.lengthDetails := by
  rw [← p.details_misfits]
  rfl

/-- Acceptance, for every request and whatever identity it would be given. A request that is
accepted takes that identity exactly if it names none. One that is not has broken rules, and the
order in which they come does not matter to what is told of them. -/
theorem accepted_iff (r : Request) (fresh : CorrelationId) :
    ((∃ m, r.accept fresh = .ok m) ↔
      r.message.IdFits ∧ r.message.TextFits ∧ r.message.IsLegible) ∧
    (∀ m, r.accept fresh = .ok m →
      m.text = r.message.text ∧
      m.correlationId =
        (if r.message.correlationId = "" then fresh else ⟨r.message.correlationId⟩) ∧
      (r.takesFreshId = true ↔ r.message.correlationId = "") ∧
      ((∃ u, fresh = .ofUuid u) → m.correlationId.text ≠ "")) ∧
    (∀ f, r.accept fresh = .error f →
      (∃ violations, f = .validation violations) ∧
      (Rulebook.standard.statusOf f).code = .invalidArgument ∧
      (Rulebook.standard.statusOf f).details =
        if r.message.IdFits ∧ r.message.TextFits then [⟨.invalidText, "empty text"⟩]
        else r.message.lengthDetails) ∧
    ∀ fields, Violations.Reordered r.violations fields →
      Violations.toFailure fields = Violations.toFailure r.violations := by
  have hverdict := r.verdict fresh
  generalize r.accept fresh = answer at hverdict ⊢
  refine ⟨?_, ?_, ?_, fun fields horder => ?_⟩
  · cases hverdict with
    | accepted hid htext hlegible => simp [hid, htext, hlegible]
    | blank hid htext hblank => simp [hblank]
    | misfit hfits =>
      rw [← and_assoc]
      simp [hfits]
  · rintro m rfl
    cases hverdict with
    | accepted hid htext hlegible =>
      refine ⟨rfl, rfl, takesFreshId_iff ⟨hid, htext⟩, ?_⟩
      rintro ⟨u, rfl⟩
      by_cases hgiven : r.message.correlationId = ""
      · simpa [hgiven, CorrelationId.ofUuid] using u.hyphenated_ne_empty
      · simp [hgiven]
  · rintro f rfl
    cases hverdict with
    | blank hid htext hblank =>
      rw [if_pos ⟨hid, htext⟩]
      exact ⟨⟨_, rfl⟩, rfl, rfl⟩
    | misfit hfits =>
      rw [if_neg hfits]
      exact ⟨⟨_, rfl⟩, rfl, details_misfit _⟩
  · rw [toFailure_of_reordered horder, toFailure_of_reordered (.fields (.refl _))]

def longId (length : Nat) : String :=
  String.ofList (List.replicate length 'é')

theorem length_longId (length : Nat) : (longId length).length = length := by
  simp [longId]

/-- The identity is one character too long, and the text, of four bytes, one too short. -/
def unfit : Request :=
  ⟨⟨longId 65, "éé"⟩⟩

def unfitTurned : List (String × Violations) :=
  [("message", .record [("text", .rules [textRule]),
    ("header", .record [("correlation_id", .rules [correlationIdRule])])])]

/-- Blanks at both ends of the text, and no identity. -/
def spaced : Request :=
  ⟨⟨"", " é\u3000"⟩⟩

theorem accepted_iff_unfit :
    (∃ f, unfit.accept ⟨"unused"⟩ = .error f ∧
      (Rulebook.standard.statusOf f).details =
        [⟨.invalidCorrelationId, "correlation id must be at most 64 characters"⟩,
          ⟨.invalidText, "text must be between 3 and 1024 characters"⟩]) ∧
    (Violations.Reordered unfit.violations unfitTurned ∧
      Violations.toFailure unfitTurned = Violations.toFailure unfit.violations) ∧
    ∃ m, spaced.accept (.ofUuid (.ofNat 7)) = .ok m ∧ m.text = " é\u3000" ∧
      m.correlationId = .ofUuid (.ofNat 7) ∧ m.correlationId.text ≠ "" := by
  have hid : ¬ unfit.message.IdFits := by simp [unfit, Payload.IdFits, length_longId]
  have hlength : "éé".length = 2 := by decide
  have htext : ¬ unfit.message.TextFits := by simp [unfit, Payload.TextFits, hlength]
  have hviolations : unfit.violations = [("message", .record
      [("header", .record [("correlation_id", .rules [correlationIdRule])]),
        ("text", .rules [textRule])])] := by
    simp [violations, Payload.violations, Payload.brokenHeader, Payload.brokenText, unfit,
      length_longId, hlength]
  obtain ⟨haccepts, -, hrefused, hturned⟩ := accepted_iff unfit ⟨"unused"⟩
  obtain ⟨haccepts', hkept, -⟩ := accepted_iff spaced (.ofUuid (.ofNat 7))
  refine ⟨?_, ?_, ?_⟩
  · cases haccept : unfit.accept ⟨"unused"⟩ with
    | ok m => exact absurd (haccepts.mp ⟨m, haccept⟩).1 hid
    | error f =>
      obtain ⟨-, -, hdetails⟩ := hrefused f haccept
      exact ⟨f, rfl, by simp [hdetails, Payload.lengthDetails, hid, htext]⟩
  · have hturn : Violations.Reordered unfit.violations unfitTurned := by
      rw [hviolations]
      exact .inRecord [] [] "message" (.fields (.swap _ _ _))
    exact ⟨hturn, hturned _ hturn⟩
  · obtain ⟨m, hm⟩ := haccepts'.mpr ⟨by decide, by decide, 'é', by decide, by decide⟩
    obtain ⟨htext, hgiven, -, hne⟩ := hkept m hm
    exact ⟨m, hm, htext, hgiven, hne ⟨_, rfl⟩⟩

end Request

end Chat

end NoteRelay
