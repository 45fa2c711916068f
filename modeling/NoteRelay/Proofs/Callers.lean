import NoteRelay.Http.Routing
import NoteRelay.Proofs.Text.Bytes

/-!
# Which token counts

A readable `Authorization` header decides on its own who is calling, however good the token of the
query is; without one the token of the query decides on its own. Nobody else is let into a
subscription, and whoever is refused is told 401 (`Credentials.resolve_choice`).
-/

namespace NoteRelay

namespace Credentials

-- ---------------------------------------------------------------------------
-- Header values as text
-- ---------------------------------------------------------------------------

/-- Tabs and the printable characters of ASCII. -/
def IsText (value : ByteArray) : Prop :=
  ∀ b ∈ value.data.toList, b = 9 ∨ (0x20 ≤ b ∧ b ≤ 0x7e)

instance (value : ByteArray) : Decidable (IsText value) :=
  inferInstanceAs (Decidable (∀ b ∈ value.data.toList, _))

/-- The first of some header values is text. -/
def ShowsText (authorization : List ByteArray) : Prop :=
  ∃ value later, authorization = value :: later ∧ IsText value

variable {v : Verifier} {value : ByteArray} {authorization later : List ByteArray}
  {query : Option String} {header token : String} {user : UserId} {failure : Failure}

theorem IsText.lt (h : IsText value) : ∀ b ∈ value.data.toList, b < 128 := by
  intro b hb
  obtain rfl | ⟨-, hle⟩ := h b hb
  · decide
  · exact UInt8.lt_of_le_of_lt hle (by decide)

theorem headerText?_of_isText (h : IsText value) :
    headerText? value = some (Text.asciiText value.data.toList) := by
  rw [headerText?, Text.toList_eq, if_pos]
  · rfl
  · rw [List.all_eq_true]
    intro b hb
    simpa using h b hb

theorem headerText?_of_not_isText (h : ¬ IsText value) : headerText? value = none := by
  rw [headerText?, Text.toList_eq, if_neg]
  intro hall
  refine h fun b hb => ?_
  simpa using List.all_eq_true.mp hall b hb

/-- A value that is text is written in the bytes of its text, and of no other. -/
theorem asciiText_eq_iff (h : IsText value) (s : String) :
    Text.asciiText value.data.toList = s ↔ value = s.toUTF8 := by
  constructor
  · rintro rfl
    exact ByteArray.ext (Array.toList_inj.mp (Text.bytes_asciiText h.lt).symm)
  · rintro rfl
    exact Text.bytes_inj (Text.bytes_asciiText h.lt)

-- ---------------------------------------------------------------------------
-- The token that is shown
-- ---------------------------------------------------------------------------

theorem shownToken_cons (h : IsText value) :
    shownToken (value :: later) query =
      if bearerMark.toList.isPrefixOf (Text.asciiText value.data.toList).toList then
        .ok (String.ofList ((Text.asciiText value.data.toList).toList.drop bearerMark.length))
      else .error (.unauthenticated "invalid authorization header format") := by
  simp only [shownToken, List.head?_cons, Option.bind_some, headerText?_of_isText h]

theorem shownToken_of_not_showsText (h : ¬ ShowsText authorization) :
    shownToken authorization query =
      match query with
      | some token =>
        if token.isEmpty then .error (.unauthenticated "missing token") else .ok token
      | none => .error (.unauthenticated "missing token") := by
  have hnone : authorization.head?.bind headerText? = none := by
    cases authorization with
    | nil => rfl
    | cons value later =>
      exact headerText?_of_not_isText fun htext => h ⟨value, later, rfl, htext⟩
  cases query <;> simp only [shownToken, hnone]

theorem isPrefixOf_iff (mark header token : String) :
    (mark.toList.isPrefixOf header.toList ∧
      String.ofList (header.toList.drop mark.length) = token) ↔ header = mark ++ token := by
  constructor
  · rintro ⟨hstart, rfl⟩
    obtain ⟨rest, hrest⟩ := List.isPrefixOf_iff_prefix.mp hstart
    rw [← hrest, ← String.length_toList, List.drop_left, ← String.toList_inj, String.toList_append,
      String.toList_ofList, hrest]
  · rintro rfl
    rw [String.toList_append, ← String.length_toList, List.drop_left, String.ofList_toList]
    exact ⟨List.isPrefixOf_iff_prefix.mpr (List.prefix_append _ _), rfl⟩

theorem shownToken_cons_eq_ok_iff (h : IsText value) :
    shownToken (value :: later) query = .ok token ↔ value = (bearerMark ++ token).toUTF8 := by
  rw [← asciiText_eq_iff h, ← isPrefixOf_iff, shownToken_cons h]
  split <;> simp [*]

theorem shownToken_eq_ok_iff (h : ¬ ShowsText authorization) :
    shownToken authorization query = .ok token ↔ query = some token ∧ token ≠ "" := by
  rw [shownToken_of_not_showsText h]
  cases query with
  | none => simp
  | some given =>
    by_cases hempty : given = ""
    · subst hempty
      constructor
      · intro h
        cases h
      · rintro ⟨⟨⟩, hne⟩
        exact absurd rfl hne
    · simp only [String.isEmpty_iff, hempty, if_false, Except.ok.injEq, Option.some.injEq]
      constructor
      · rintro rfl
        exact ⟨rfl, hempty⟩
      · exact And.left

theorem kind_of_shownToken (h : shownToken authorization query = .error failure) :
    failure.kind = .unauthenticated := by
  by_cases hshows : ShowsText authorization
  · obtain ⟨value, later, rfl, htext⟩ := hshows
    rw [shownToken_cons htext] at h
    split at h
    · cases h
    · cases h
      rfl
  · rw [shownToken_of_not_showsText hshows] at h
    split at h
    · split at h
      · cases h
        rfl
      · cases h
    · cases h
      rfl

-- ---------------------------------------------------------------------------
-- The caller
-- ---------------------------------------------------------------------------

/-- A token is taken for one of a user. -/
def Verifier.Accepts (v : Verifier) (token : String) (user : UserId) : Prop :=
  ∃ claims, v.verify token = .ok claims ∧ claims.userId = user.value

theorem kind_of_verify (h : v.verify token = .error failure) :
    failure.kind = .unauthenticated := by
  unfold Verifier.verify at h
  split at h
  · cases h
  · cases h
    rfl

theorem resolve_eq_ok_iff :
    resolve v authorization query = .ok ⟨user⟩ ↔
      ∃ token, shownToken authorization query = .ok token ∧ v.Accepts token user := by
  obtain ⟨n⟩ := user
  unfold resolve Verifier.Accepts
  cases hshown : shownToken authorization query with
  | error failure => simp [bind, Except.bind]
  | ok token =>
    cases hverify : v.verify token with
    | error failure => simp [bind, Except.bind, hverify]
    | ok claims => simp [bind, Except.bind, pure, Except.pure, hverify]

theorem kind_of_resolve (h : resolve v authorization query = .error failure) :
    failure.kind = .unauthenticated := by
  unfold resolve at h
  cases hshown : shownToken authorization query with
  | error shown =>
    rw [hshown] at h
    cases h
    exact kind_of_shownToken hshown
  | ok token =>
    rw [hshown] at h
    cases hverify : v.verify token with
    | error refused =>
      simp only [bind, Except.bind, hverify] at h
      cases h
      exact kind_of_verify hverify
    | ok claims => simp [bind, Except.bind, pure, Except.pure, hverify] at h

theorem resolve_congr {other : List ByteArray} {otherQuery : Option String}
    (h : shownToken authorization query = shownToken other otherQuery) :
    resolve v authorization query = resolve v other otherQuery := by
  rw [resolve, resolve, h]

end Credentials

-- ---------------------------------------------------------------------------
-- The answer to a request
-- ---------------------------------------------------------------------------

namespace Http

open Credentials

/-- A request that only its caller's token decides on. -/
structure AsksForNotes (r : Request) : Prop where
  readable : r.isReadable
  path : r.path = "/api/v1/notes/events"
  oneToken : (queryTokens r).length ≤ 1
  upgrade : upgradeFlaw? r = none

def callerOf (v : Verifier) (r : Request) : Except Failure Principal :=
  resolve v (r.values "authorization") (queryTokens r).head?

variable {g : Gate} {r : Request} {failure : Failure} {caller : Principal} {body : Status}

theorem httpStatus_standard (h : failure.kind = .unauthenticated) :
    (Rulebook.standard.statusOf failure).code.httpStatus = 401 := by
  simp [Rulebook.statusOf, Rulebook.standard, h, Rulebook.standardRule, Code.httpStatus]

theorem isReading_of_upgradeFlaw? (h : upgradeFlaw? r = none) : isReading r.method := by
  have hget : r.method = "GET" := by
    by_contra hne
    simp [upgradeFlaw?, hne] at h
  simp [isReading, hget]

theorem answer_of_asksForNotes (h : AsksForNotes r) :
    answer g r = match callerOf g.verifier r with
      | .ok caller => .switching (.notes caller)
      | .error failure => .refused (g.rulebook.statusOf failure) := by
  unfold callerOf
  cases hcaller : resolve g.verifier (r.values "authorization") (queryTokens r).head? <;>
    simp only [answer, h.readable, if_true, routed, h.path, isReading_of_upgradeFlaw? h.upgrade,
      notesAnswer, h.upgrade, if_neg (Nat.not_lt.mpr h.oneToken), hcaller]

/-- An answer of another sort is one to a subscription that the caller's token decides on. -/
theorem asksForNotes_of_answer (hplain : ∀ status, answer g r ≠ .plain status)
    (hchat : answer g r ≠ .switching .chat) : AsksForNotes r := by
  unfold answer routed chatAnswer at hplain hchat
  by_cases hreadable : r.isReadable
  · simp only [hreadable, if_true] at hplain hchat
    split at hplain
    · split at hplain <;> simp at hplain
    · split at hplain
      · split at hplain <;> simp_all
      · simp at hplain
    · rename_i hpath
      split at hplain
      · unfold notesAnswer at hplain
        by_cases hmany : 1 < (queryTokens r).length
        · simp [hmany] at hplain
        · cases hflaw : upgradeFlaw? r with
          | some status => simp [hmany, hflaw] at hplain
          | none => exact ⟨hreadable, hpath, Nat.not_lt.mp hmany, hflaw⟩
      · simp at hplain
    · simp at hplain
  · simp [hreadable] at hplain

theorem callerOf_of_switching (h : answer g r = .switching (.notes caller)) :
    callerOf g.verifier r = .ok caller := by
  have hask : AsksForNotes r := asksForNotes_of_answer (g := g) (by simp [h]) (by simp [h])
  rw [answer_of_asksForNotes hask] at h
  cases hcaller : callerOf g.verifier r with
  | ok other =>
    rw [hcaller] at h
    cases h
    rfl
  | error failure => simp [hcaller] at h

theorem callerOf_of_refused (h : answer g r = .refused body) :
    ∃ failure, callerOf g.verifier r = .error failure ∧ body = g.rulebook.statusOf failure := by
  have hask : AsksForNotes r := asksForNotes_of_answer (g := g) (by simp [h]) (by simp [h])
  rw [answer_of_asksForNotes hask] at h
  cases hcaller : callerOf g.verifier r with
  | ok caller => simp [hcaller] at h
  | error failure =>
    rw [hcaller] at h
    cases h
    exact ⟨failure, rfl, rfl⟩

end Http

namespace Credentials

open Http in
/-- Who a caller is taken for. A first header value that is text counts alone, whatever else is
shown, and without one the token of the query counts alone; later header values never matter. Any
other caller is unauthenticated, is told 401 under the standard rulebook, and enters no session. -/
theorem resolve_choice (v : Verifier) :
    (∀ value, IsText value → ∀ later query,
      (∀ otherLater otherQuery,
        resolve v (value :: later) query = resolve v (value :: otherLater) otherQuery) ∧
      ∀ user, resolve v (value :: later) query = .ok ⟨user⟩ ↔
        ∃ token, value = ("Bearer " ++ token).toUTF8 ∧ v.Accepts token user) ∧
    (∀ authorization, ¬ ShowsText authorization → ∀ query,
      (∀ other, ¬ ShowsText other → resolve v authorization query = resolve v other query) ∧
      ∀ user, resolve v authorization query = .ok ⟨user⟩ ↔
        ∃ token, query = some token ∧ token ≠ "" ∧ v.Accepts token user) ∧
    (∀ value later otherLater query,
      resolve v (value :: later) query = resolve v (value :: otherLater) query) ∧
    (∀ authorization query failure,
      resolve v authorization query = .error failure → failure.kind = .unauthenticated) ∧
    ∀ r,
      (AsksForNotes r → ∀ caller, callerOf v r = .ok caller →
        answer ⟨v, .standard⟩ r = .switching (.notes caller)) ∧
      (AsksForNotes r → ∀ failure, callerOf v r = .error failure →
        answer ⟨v, .standard⟩ r = .refused (Rulebook.standard.statusOf failure)) ∧
      (∀ caller, answer ⟨v, .standard⟩ r = .switching (.notes caller) → callerOf v r = .ok caller) ∧
      (∀ body, answer ⟨v, .standard⟩ r = .refused body → (answer ⟨v, .standard⟩ r).status = 401) := by
  refine ⟨fun value htext later query => ⟨fun otherLater otherQuery => ?_, fun user => ?_⟩,
    fun authorization hnone query => ⟨fun other hother => ?_, fun user => ?_⟩,
    fun value later otherLater query => ?_, fun _ _ _ h => kind_of_resolve h,
    fun r => ⟨fun h caller hcaller => ?_, fun h failure hfailure => ?_, fun caller h => ?_,
      fun body h => ?_⟩⟩
  · exact resolve_congr (by rw [shownToken_cons htext, shownToken_cons htext])
  · rw [resolve_eq_ok_iff]
    exact exists_congr fun token => and_congr_left' (shownToken_cons_eq_ok_iff htext)
  · exact resolve_congr (by
      rw [shownToken_of_not_showsText hnone, shownToken_of_not_showsText hother])
  · rw [resolve_eq_ok_iff]
    refine exists_congr fun token => ?_
    rw [shownToken_eq_ok_iff hnone, and_assoc]
  · rfl
  · rw [answer_of_asksForNotes h, hcaller]
  · rw [answer_of_asksForNotes h, hfailure]
  · have hcaller := callerOf_of_switching h
    exact hcaller
  · obtain ⟨failure, hcaller, rfl⟩ := callerOf_of_refused h
    rw [h]
    exact httpStatus_standard (kind_of_resolve hcaller)

def keyed : Verifier :=
  ⟨"key", 0⟩

def keyedToken : String :=
  "eyJhbGciOiJIUzI1NiJ9.eyJ1c2VyX2lkIjo3LCJleHAiOjQxMDI0NDQ4MDB9." ++
    "Tn6-e4DzznRuY7xOzC4cfsyzzUeIvRtSJMvsBAl0NYU"

theorem keyed_accepts : keyed.Accepts keyedToken ⟨7⟩ :=
  ⟨⟨7, 4102444800⟩, by decide +kernel, rfl⟩

open Http in
/-- A request for a subscription, with some values of the header that callers show tokens in. -/
def subscribing (authorization : List ByteArray) : Request where
  method := "GET"
  target := "/api/v1/notes/events"
  headers := [("connection", "Upgrade".toUTF8), ("upgrade", "websocket".toUTF8),
    ("sec-websocket-key", "key".toUTF8), ("sec-websocket-version", "13".toUTF8)] ++
      authorization.map fun value => ("authorization", value)

open Http in
theorem resolve_choice_keyed :
    resolve keyed [("Bearer " ++ keyedToken).toUTF8] none = .ok ⟨⟨7⟩⟩ ∧
      resolve keyed [] (some keyedToken) = .ok ⟨⟨7⟩⟩ ∧
      resolve keyed ["Basic".toUTF8] (some keyedToken) = resolve keyed ["Basic".toUTF8] none ∧
      (answer ⟨keyed, .standard⟩ (subscribing [])).status = 401 := by
  obtain ⟨hheader, hquery, -, -, hanswer⟩ := resolve_choice keyed
  refine ⟨?_, ?_, ?_, ?_⟩
  · exact ((hheader _ (by decide +kernel) [] none).2 ⟨7⟩).mpr ⟨keyedToken, rfl, keyed_accepts⟩
  · exact ((hquery [] (by simp [ShowsText]) _).2 ⟨7⟩).mpr
      ⟨keyedToken, rfl, by decide, keyed_accepts⟩
  · exact (hheader "Basic".toUTF8 (by decide +kernel) [] (some keyedToken)).1 [] none
  · have hask : AsksForNotes (subscribing []) :=
      ⟨by decide +kernel, by decide +kernel, by decide +kernel, by decide +kernel⟩
    have hrefused := (hanswer (subscribing [])).2.1 hask (.unauthenticated "missing token")
      (by decide +kernel)
    exact (hanswer (subscribing [])).2.2.2 _ hrefused

end Credentials

end NoteRelay
