/-
# What routing makes of a conversation

Whatever the routing library captures, a route that succeeds returns the client's own
request with every message of it, verbatim and once, and with nothing else but texts
that the library wrote (`route_conversation`).  Nothing is assumed of the library here;
that a route does succeed, and where each message then is, depends on what it captures.
-/

import SwitchyardGateway.Adapters.Notes
import SwitchyardGateway.Matching.Interspersed

namespace SwitchyardGateway
namespace Switchyard

open Python Matching

variable {lib : Lib} {stage : Pair → List Json → Except Err Captures} {request : Payload} {pair : Pair}
  {result : RoutingResult}

/-- What is restored is a text. -/
theorem bare_of_restore {row message : Json} (h : restore row = .ok message) : Bare message := by
  unfold restore at h
  obtain ⟨fields, -, h⟩ := bind_ok h
  obtain ⟨blocks, -, h⟩ := bind_ok h
  obtain ⟨alltext, -, h⟩ := bind_ok h
  cases alltext with
  | false => cases h
  | true =>
    rw [if_pos rfl] at h
    obtain ⟨role, -, h⟩ := bind_ok h
    obtain ⟨texts, -, h⟩ := bind_ok h
    exact ⟨role, _, (Except.ok.inj h).symm⟩

/-- **Putting back** takes messages out of the line, and adds texts. -/
theorem putBack_interspersed {line left : List (Json × Json)} {rows output : List Json}
    (h : putBack line rows = .ok (output, left)) :
    ∃ sources, Interspersed Bare sources output ∧
      (sources ++ left.map Prod.snd).Perm (line.map Prod.snd) := by
  induction rows generalizing line output with
  | nil =>
    obtain ⟨rfl, rfl⟩ := Prod.mk.inj (Except.ok.inj h)
    exact ⟨[], .nil, .refl _⟩
  | cons row rows ih =>
    unfold putBack at h
    split at h
    · obtain ⟨message, hmessage, h⟩ := bind_ok h
      obtain ⟨⟨rest, left'⟩, hrest, h⟩ := bind_ok h
      obtain ⟨rfl, rfl⟩ := Prod.mk.inj (Except.ok.inj h)
      obtain ⟨sources, hinter, hperm⟩ := ih hrest
      exact ⟨sources, .added (bare_of_restore hmessage) hinter, hperm⟩
    · rename_i key source hfind
      obtain ⟨⟨rest, left'⟩, hrest, h⟩ := bind_ok h
      obtain ⟨rfl, rfl⟩ := Prod.mk.inj (Except.ok.inj h)
      obtain ⟨sources, hinter, hperm⟩ := ih hrest
      refine ⟨source :: sources, .kept hinter, ?_⟩
      exact (hperm.cons source).trans ((perm_cons_eraseP hfind).map Prod.snd)

/-- The messages that are normalized are those of the request. -/
theorem messages_of_normalizeAll {rows messages normalized : List Json}
    (hrows : request.lookup (lit "messages") = some (.list rows))
    (h : normalizeAll lib request = .ok (messages, normalized)) : messages = rows := by
  have hitem : item (.obj request) "messages" = .ok (.list rows) := by rw [item, hrows]
  unfold normalizeAll at h
  rw [hitem, ok_bind, iterate, ok_bind] at h
  cases hmapM : rows.mapM (normalize lib) with
  | ok ys =>
    rw [hmapM] at h
    exact (Prod.mk.inj (Except.ok.inj h)).1.symm
  | error e =>
    rw [hmapM] at h
    cases e <;> cases h

/-- The client's messages in some order, each once and as it was, with texts between. -/
def Conveys (messages output : List Json) : Prop :=
  ∃ sources, sources.Perm messages ∧ Interspersed Bare sources output

/-- **The messages come back** in some order, each once, with texts between. -/
theorem rewritten_interspersed {messages normalized output : List Json} {captured : Payload}
    (hlength : messages.length = normalized.length) (h : rewritten messages normalized captured = .ok output) :
    Conveys messages output := by
  unfold rewritten at h
  obtain ⟨instructions, -, h⟩ := bind_ok h
  obtain ⟨generated, hgenerated, h⟩ := bind_ok h
  obtain ⟨value, -, h⟩ := bind_ok h
  obtain ⟨rows, -, h⟩ := bind_ok h
  obtain ⟨⟨rest, left⟩, hrest, h⟩ := bind_ok h
  dsimp only at h
  split at h
  · rename_i hleft
    obtain rfl := Except.ok.inj h
    obtain ⟨sources, hinter, hperm⟩ := putBack_interspersed hrest
    rw [List.isEmpty_iff.1 hleft, List.map_nil, List.append_nil, List.map_snd_zip hlength.le] at hperm
    have htexts : ∀ message ∈ generated, Bare message := by
      intro message hmessage
      obtain ⟨row, -, hrow⟩ := exists_related (mapM_ok_iff.1 hgenerated).flip hmessage
      exact bare_of_restore hrow
    exact ⟨sources, hperm, hinter.after htexts⟩
  · cases h

/-- **A route conveys the conversation**, whatever the library captured. -/
theorem route_conversation {rows : List Json} (hrows : request.lookup (lit "messages") = some (.list rows))
    (h : route lib stage request pair = .ok result) :
    ∃ output, result.request = request.set (lit "messages") (.list output) ∧ Conveys rows output := by
  unfold route at h
  obtain ⟨⟨messages, normalized⟩, hnormal, h⟩ := bind_ok h
  have hnormal := mapError_ok hnormal
  obtain rfl := messages_of_normalizeAll hrows hnormal
  obtain ⟨captures, -, h⟩ := bind_ok (mapError_ok h)
  obtain ⟨⟨tier, captured⟩, -, h⟩ := bind_ok h
  obtain ⟨output, houtput, h⟩ := bind_ok h
  obtain rfl := Except.ok.inj h
  exact ⟨output, rfl, rewritten_interspersed (normalizeAll_ok hnormal).length_eq (mapError_ok houtput)⟩

end Switchyard
end SwitchyardGateway
