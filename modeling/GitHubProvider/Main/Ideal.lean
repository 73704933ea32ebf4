/- The process as the ideal provider, from bytes to bytes. -/

import GitHubProvider.Main.Wire
import GitHubProvider.Serve.FileAgreement
import GitHubProvider.Serve.Ideal

set_option autoImplicit false
set_option relaxedAutoImplicit false

namespace GitHubProvider.Main

open Client (Arrival Sending Stream Ureq UreqClient)
open Http (Get)
open Interaction (Environment Machine)
open Json (SerdeJson)
open Serve (Faithful FailedByHost NamesCommits Objects Session Sha256 Truthful unfailed)

section

variable [SerdeJson] [Sha256] [Ureq]

/-- Whatever the network has answered before, what it answers next with success is, as the
client hands it on, what the objects are. -/
def TruthfulWire {W : Type} (objects : Objects) (wire : Environment W Sending Arrival) : Prop :=
  ∀ world get, Truthful objects (get, (clientHost wire world get).1)

def wireDialogue {W : Type} (wire : Environment W Sending Arrival) (world : W)
    (token : Option String) (stdin : Stream) : List Serve.SessionTurn :=
  dialogue (clientHost wire) world token stdin

/-- Whatever bytes come in, and before a network that tells the truth about the objects and may
fail whenever it likes: what the process writes are the replies of its turns, one after another;
those that the network did not fail are the replies of the ideal provider in one run, and the
others are refusals for what it answered. -/
theorem process_is_ideal (serde : Faithful) {W : Type} {wire : Environment W Sending Arrival}
    {objects : Objects} (truthful : TruthfulWire objects wire) (world : W)
    (token : Option String) (stdin : Stream) :
    ((processOverClient token stdin).run wire world).result.output =
        ((wireDialogue wire world token stdin).map chunk).flatten ∧
      (∃ frames,
        replyFormat.unframe ((processOverClient token stdin).run wire world).result.output =
          some frames ∧ List.Forall₂ Recovers (wireDialogue wire world token stdin) frames) ∧
      (∃ images final, objects.providing.Chain .new images final ∧
        List.Forall₂ (Machine.SeenAs Session.pinned NamesCommits)
          ((wireDialogue wire world token stdin).filter unfailed) images) ∧
      ∀ turn ∈ wireDialogue wire world token stdin, unfailed turn = false → FailedByHost turn := by
  obtain ⟨final, chain⟩ := dialogue_chain (clientHost wire) world token stdin
  have told : ∀ turn ∈ wireDialogue wire world token stdin, ∀ e ∈ turn.exchanges,
      Truthful objects e := by
    intro turn hturn e he
    obtain ⟨world', answered⟩ := Machine.turns_answered Session.serving (clientHost wire) world
      .new _ turn hturn e he
    have truth := truthful world' e.1
    rwa [← answered] at truth
  have behind : ((processOverClient token stdin).run wire world).result =
      ((process token stdin).run (clientHost wire) world).result :=
    mainOverClient_run wire world token (lines stdin)
  obtain ⟨images, ideal, seen⟩ := Serve.chain_providing chain told
  obtain ⟨frames, encoded, recovered⟩ := dialogue_encodes serde (clientHost wire) world token stdin
  refine ⟨?_, ⟨frames, ?_, recovered⟩, ⟨images, final.pinned, ideal, seen⟩,
    Serve.chain_failedByHost chain⟩
  · rw [behind, process_output]
    rfl
  · rw [behind, process_output]
    exact Framing.Format.unframe_flatten (List.forall₂_map_left_iff.mpr encoded)

end

section

attribute [local instance] Json.compact Serve.sha2 Client.documentedUreq

def uniformWire : Environment Unit Sending Arrival :=
  Interaction.fixed fun sending =>
    let body := if ("accept", Api.rawMediaType) ∈ sending.headers then Serve.fileBody
      else Serve.uniformBody
    some ⟨200, [], ⟨body.toList, false⟩⟩

private theorem received_small {body : Bytes}
    (fits : body.toList.length ≤ Client.maxResponseBytes) :
    UreqClient.received (Ureq.call UreqClient.new.agent (some ⟨200, [], ⟨body.toList, false⟩⟩)) =
      Serve.found body := by
  have response : ¬Client.Reception.IsRefusal ⟨200, [], ⟨body.toList, false⟩⟩ :=
    fun refusal => absurd (show (400 : UInt16) ≤ 200 from refusal.1) (by decide)
  have whole : Stream.readToEnd ⟨body.toList, false⟩ = some body := by
    rw [Stream.readToEnd, if_neg (by simp)]
    exact congrArg some (Bytes.ext (List.take_of_length_le fits))
  rw [Client.received_response Client.documented_documentedUreq rfl response, UreqClient.received,
    whole]
  rfl

private theorem clientHost_uniform (world : Unit) (get : Get) :
    (clientHost uniformWire world get).1 =
      if ("accept", Api.rawMediaType) ∈ (UreqClient.new.sending get).headers then
        Serve.found Serve.fileBody
      else Serve.found Serve.uniformBody := by
  have small : Serve.fileBody.toList.length ≤ Client.maxResponseBytes ∧
      Serve.uniformBody.toList.length ≤ Client.maxResponseBytes := by decide +kernel
  unfold clientHost Interaction.Program.behind uniformWire Interaction.fixed
  dsimp only
  split
  · exact received_small small.1
  · exact received_small small.2

private theorem uniform_listed {authenticated : Bool} {tree : Api.Tree}
    (listed : Api.listing (Serve.found Serve.uniformBody) authenticated = .ok tree) :
    tree.entries = [Serve.file] := by
  have success : Api.Success ⟨200, ∅, Serve.uniformBody⟩ := ⟨by decide, by decide⟩
  have described := (Serve.listing_describes_iff success Serve.uniformBody_fromSlice rfl).mp listed
  have unauthenticated : Api.listing (Serve.found Serve.uniformBody) false = .ok tree :=
    (Serve.listing_describes_iff success Serve.uniformBody_fromSlice rfl).mpr described
  obtain rfl := Except.ok.inj (Serve.lists_uniform.symm.trans unauthenticated)
  rfl

private theorem truthfulWire_uniform : TruthfulWire Serve.oneFile uniformWire := by
  intro world get
  have answered := clientHost_uniform world get
  have accepts (accept : String) (asked : get.accept = accept) :
      ("accept", Api.rawMediaType) ∈ (UreqClient.new.sending get).headers ↔
        accept = Api.rawMediaType := by
    subst asked
    simp [UreqClient.sending, UreqClient.new, eq_comm]
  constructor
  · intro locator commit credential tree asked listed
    have json := accepts Api.jsonMediaType (congrArg Get.accept asked)
    rw [if_neg (mt json.mp Api.json_ne_raw)] at answered
    dsimp only at listed
    rw [answered] at listed
    exact uniform_listed listed
  · intro locator blobId credential response asked received
    have raw := accepts Api.rawMediaType (congrArg Get.accept asked)
    rw [if_pos (raw.mpr rfl)] at answered
    dsimp only at received
    rw [answered, Serve.accepted_found] at received
    obtain rfl := Except.ok.inj received
    rfl

theorem process_is_ideal_uniform :
    let stdin : Stream := ⟨spoken [.handshake, .resolve "github://o/r/a?ref=m", .read "c" "a"],
      false⟩
    ((processOverClient none stdin).run uniformWire ()).result.output =
        ((wireDialogue uniformWire () none stdin).map chunk).flatten ∧
      (∃ frames,
        replyFormat.unframe ((processOverClient none stdin).run uniformWire ()).result.output =
          some frames ∧ List.Forall₂ Recovers (wireDialogue uniformWire () none stdin) frames) ∧
      (∃ images final, Serve.oneFile.providing.Chain .new images final ∧
        List.Forall₂ (Machine.SeenAs Session.pinned NamesCommits)
          ((wireDialogue uniformWire () none stdin).filter unfailed) images) ∧
      ∀ turn ∈ wireDialogue uniformWire () none stdin, unfailed turn = false → FailedByHost turn :=
  process_is_ideal Serve.faithful_compact truthfulWire_uniform () none _

end

end GitHubProvider.Main
