/- Which answers a call fails for, and with which code. -/

import GitHubProvider.Api.Answers

set_option autoImplicit false
set_option relaxedAutoImplicit false

namespace GitHubProvider.Api

open Http (Answer Response)
open Json (SerdeJson Value)

def FailsWith {α : Type} (code : ProviderCode) (result : Except ApiError α) : Prop :=
  ∃ error, result = .error error ∧ error.code = code

def Success (response : Response) : Prop := 200 ≤ response.status ∧ response.status ≤ 299

/-- A header says that the quota is spent, or when to ask again. Names are stored in lower
case, whatever their case was. -/
def SaysLimited (response : Response) : Prop :=
  response.headers.lookup "x-ratelimit-remaining" = some "0" ∨
    response.headers.lookup "retry-after" ≠ none

instance (response : Response) : Decidable (Success response) :=
  inferInstanceAs (Decidable (_ ∧ _))

instance (response : Response) : Decidable (SaysLimited response) :=
  inferInstanceAs (Decidable (_ ∨ _))

section

variable {α β : Type} {code : ProviderCode}

@[simp] theorem failsWith_ok (value : α) : ¬FailsWith code (.ok value) := by
  rintro ⟨_, ⟨⟩, -⟩

@[simp] theorem failsWith_error (error : ApiError) :
    FailsWith code (.error error : Except ApiError α) ↔ error.code = code := by
  constructor
  · intro h
    obtain ⟨_, ⟨⟩, same⟩ := h
    exact same
  · intro same
    exact ⟨error, rfl, same⟩

theorem failsWith_bind (result : Except ApiError α) (next : α → Except ApiError β) :
    FailsWith code (result >>= next) ↔
      FailsWith code result ∨ ∃ value, result = .ok value ∧ FailsWith code (next value) := by
  cases result <;> simp [bind, Except.bind]

@[simp] theorem failsWith_map (f : α → β) (result : Except ApiError α) :
    FailsWith code (result.map f) ↔ FailsWith code result := by
  cases result <;> simp [Except.map]

end

section

variable {response : Response} {authenticated : Bool}

theorem exhausted_iff : exhausted response = true ↔ SaysLimited response := by
  have quota : Text.toAsciiLowercase "x-ratelimit-remaining" = "x-ratelimit-remaining" := by decide
  have later : Text.toAsciiLowercase "retry-after" = "retry-after" := by decide
  simp only [exhausted, Response.header, SaysLimited, Bool.or_eq_true, beq_iff_eq,
    Option.isSome_iff_ne_none]
  rw [quota, later]

theorem saysLimited_withHeader {name value : String}
    (h : (Text.toAsciiLowercase name = "x-ratelimit-remaining" ∧ value = "0") ∨
      Text.toAsciiLowercase name = "retry-after") :
    SaysLimited (response.withHeader name value) := by
  rcases h with ⟨quota, rfl⟩ | later
  · left
    rw [Response.withHeader, quota]
    exact AList.lookup_insert _
  · right
    rw [Response.withHeader, later, AList.lookup_insert]
    simp

theorem judge_ok_iff : judge response authenticated = .ok () ↔ Success response := by
  unfold judge Success
  dsimp only
  constructor
  · intro h
    split_ifs at h with success
    exact success
  · intro success
    rw [if_pos success]

/-- The code of a judgement, in the order in which the arms are tried. -/
theorem judge_failsWith_iff {code : ProviderCode} :
    FailsWith code (judge response authenticated) ↔ ¬Success response ∧
      code = if response.status = 401 then .credentialRejected
        else if (response.status = 403 ∨ response.status = 429) ∧ SaysLimited response then
          .limitExceeded
        else if response.status = 403 then .credentialRejected
        else if response.status = 404 ∧ authenticated = false then .credentialRequired
        else .sourceUnavailable := by
  unfold judge Success
  simp only [exhausted_iff]
  split_ifs <;> simp_all [eq_comm]

theorem not_success (h : response.status ∈ [401, 403, 404, 429]) : ¬Success response := by
  intro success
  unfold Success at success
  simp only [List.mem_cons, List.not_mem_nil, or_false] at h
  rcases h with status | status | status | status <;>
    rw [status] at success <;> exact absurd success (by decide)

theorem judge_limitExceeded_iff :
    FailsWith .limitExceeded (judge response authenticated) ↔
      (response.status = 403 ∨ response.status = 429) ∧ SaysLimited response := by
  rw [judge_failsWith_iff]
  constructor
  · intro h
    have arm := h.2
    split_ifs at arm with _ limited
    exact limited
  · intro limited
    have failed : ¬Success response := not_success (by rcases limited.1 with h | h <;> simp [h])
    have other : response.status ≠ 401 := by
      rcases limited.1 with h | h <;> rw [h] <;> decide
    rw [if_neg other, if_pos limited]
    exact ⟨failed, rfl⟩

theorem judge_credentialRejected_iff :
    FailsWith .credentialRejected (judge response authenticated) ↔
      response.status = 401 ∨ (response.status = 403 ∧ ¬SaysLimited response) := by
  rw [judge_failsWith_iff]
  constructor
  · intro h
    have arm := h.2
    split_ifs at arm with rejected limited forbidden
    · exact .inl rejected
    · exact .inr ⟨forbidden, fun spent => limited ⟨.inl forbidden, spent⟩⟩
  · intro h
    rcases h with rejected | ⟨forbidden, silent⟩
    · rw [if_pos rejected]
      exact ⟨not_success (by simp [rejected]), rfl⟩
    · have other : response.status ≠ 401 := by
        rw [forbidden]
        decide
      rw [if_neg other, if_neg fun limited => silent limited.2, if_pos forbidden]
      exact ⟨not_success (by simp [forbidden]), rfl⟩

theorem judge_credentialRequired_iff :
    FailsWith .credentialRequired (judge response authenticated) ↔
      response.status = 404 ∧ authenticated = false := by
  rw [judge_failsWith_iff]
  constructor
  · intro h
    have arm := h.2
    split_ifs at arm with _ _ _ absent
    exact absent
  · intro absent
    have others : response.status ≠ 401 ∧ response.status ≠ 403 ∧ response.status ≠ 429 := by
      rw [absent.1]
      decide
    have unlimited : ¬((response.status = 403 ∨ response.status = 429) ∧ SaysLimited response) :=
      fun limited => limited.1.elim others.2.1 others.2.2
    rw [if_neg others.1, if_neg unlimited, if_neg others.2.1, if_pos absent]
    exact ⟨not_success (by simp [absent.1]), rfl⟩

end

theorem asBool_true_iff {member : Option Value} :
    member.bind Value.asBool = some true ↔ member = some (.bool true) := by
  cases member with
  | none => simp
  | some value => cases value <;> simp [Value.asBool]

section

variable {answer : Answer} {authenticated : Bool} {code : ProviderCode}

theorem accepted_failsWith_iff (other : code ≠ .sourceUnavailable) :
    FailsWith code (accepted answer authenticated) ↔
      ∃ response, answer = .ok response ∧ FailsWith code (judge response authenticated) := by
  cases answer with
  | error reason =>
      have unreached : accepted (.error reason) authenticated =
          .error ⟨.sourceUnavailable, reason⟩ := rfl
      simp [unreached, Ne.symm other]
  | ok response =>
      cases judged : judge response authenticated with
      | error error => simp [accepted_refused judged, judged]
      | ok =>
          have success := accepted_eq_ok_iff.mpr ⟨rfl, judged⟩
          simp [success, judged]

private theorem treeEntry_unavailable {item : Value} (other : code ≠ .sourceUnavailable) :
    ¬FailsWith code (treeEntry item) := by
  unfold treeEntry
  split
  · simp [Ne.symm other]
  · split <;> simp [Ne.symm other]

variable [SerdeJson]

private theorem bodyJson_unavailable {response : Response} (other : code ≠ .sourceUnavailable) :
    ¬FailsWith code (bodyJson response) := by
  unfold bodyJson
  cases SerdeJson.fromSlice response.body.toList <;> simp [Except.mapError, Ne.symm other]

theorem namedCommit_failsWith_iff (other : code ≠ .sourceUnavailable) :
    FailsWith code (namedCommit answer authenticated) ↔
      FailsWith code (accepted answer authenticated) := by
  rw [namedCommit, failsWith_bind, or_iff_left]
  rintro ⟨response, -, rest⟩
  rw [failsWith_bind] at rest
  rcases rest with unread | ⟨document, -, unnamed⟩
  · exact bodyJson_unavailable other unread
  · split at unnamed
    · exact failsWith_ok _ unnamed
    · exact other ((failsWith_error _).mp unnamed).symm

theorem listing_failsWith_iff (other : code ≠ .sourceUnavailable) :
    FailsWith code (listing answer authenticated) ↔
      FailsWith code (accepted answer authenticated) ∨
        (code = .limitExceeded ∧ ∃ response document, accepted answer authenticated = .ok response ∧
          SerdeJson.fromSlice response.body.toList = .ok document ∧
          document.get "truncated" = some (.bool true)) := by
  rw [listing, failsWith_bind]
  refine or_congr_right ?_
  constructor
  · intro h
    obtain ⟨response, received, rest⟩ := h
    rw [failsWith_bind] at rest
    rcases rest with unread | ⟨document, read, rest⟩
    · exact absurd unread (bodyJson_unavailable other)
    split at rest
    · rename_i truncated
      exact ⟨((failsWith_error _).mp rest).symm, response, document, received,
        bodyJson_eq_ok_iff.mp read, asBool_true_iff.mp truncated⟩
    split at rest
    · exact absurd ((failsWith_error _).mp rest).symm other
    rw [failsWith_bind] at rest
    rcases rest with malformed | ⟨entries, -, rest⟩
    · obtain ⟨error, failed, same⟩ := malformed
      obtain ⟨item, -, hitem⟩ := mapM_eq_error failed
      exact absurd ⟨error, hitem, same⟩ (treeEntry_unavailable other)
    · exact absurd rest (failsWith_ok _)
  · intro h
    obtain ⟨rfl, response, document, received, read, truncated⟩ := h
    refine ⟨response, received, ?_⟩
    rw [failsWith_bind]
    refine .inr ⟨document, bodyJson_eq_ok_iff.mpr read, ?_⟩
    rw [if_pos (asBool_true_iff.mpr truncated), failsWith_error]

end

end GitHubProvider.Api
