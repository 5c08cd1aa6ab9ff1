/-
# The size limit and the cuts

Two checks of `sse_body` implement one limit on the size of an event: on an event
that is complete, and on what is left in the buffer after a chunk.  What is left may
be an event with part of its blank line, so an event that is within the limit is
refused if a chunk ends inside its blank line and the part of it that has been
received takes the buffer over the limit (`CutInBlankLine`).

Nothing else goes wrong: but for such a cut, an event is refused for its size only if
it is over the limit, and no event over the limit is forwarded (`size_refused_iff`).
-/

import SwitchyardGateway.Ingress.Chunking

namespace SwitchyardGateway
namespace Ingress

open Coop Coop.Discipline Python Application Wire

/-- The complete events of some chunks. -/
def events (chunks : List Bytes) : List Bytes := (eventEnd.split chunks.flatten).1

/-- The event of the stream that is not complete after `k` chunks. -/
def nextEvent (chunks : List Bytes) (k : ℕ) : Option Bytes := (events chunks)[(events (chunks.take k)).length]?

/-- The limit is one on events: of the frames emitted none stands for an event over
it, and an event is refused for its size only if it is over it. -/
def SizeByEvent (limit : ℕ) (chunks : List Bytes) (r : Except Err Unit) (l : List Entry) : Prop :=
  (∀ i event, i < (frames l).length → (events chunks)[i]? = some event → event.length ≤ limit) ∧
    (r = .error (gatewayError "upstream_event_too_large") →
      ∀ event, (events chunks)[(frames l).length]? = some event → limit < event.length)

/-- The `k`-th chunk ends inside the blank line after an event, which is within the
limit, and takes the buffer over it. -/
def CutInBlankLine (lib : Lib) (aliasName : Str) (limit : ℕ) (chunks : List Bytes) (k : ℕ) : Prop :=
  (relayed lib aliasName limit (chunks.take k)).stop = none ∧ ∃ event part,
    nextEvent chunks k = some event ∧ event.length ≤ limit ∧ pending (chunks.take k) = event ++ part ∧
    limit < (event ++ part).length

variable {lib : Lib} {aliasName : Str} {limit me : ℕ}

/-! ### Events -/

/-- The events of a stream are those of its first chunks, and then those of what is
pending and the rest. -/
theorem events_eq (chunks : List Bytes) (k : ℕ) : events chunks = events (chunks.take k) ++
    (eventEnd.split (pending (chunks.take k) ++ (chunks.drop k).flatten)).1 := by
  have hsplit := Terminator.split_append (t := eventEnd) (chunks.take k).flatten (chunks.drop k).flatten
  rw [← List.flatten_append, List.take_append_drop] at hsplit
  rw [events, hsplit]
  rfl

theorem nextEvent_eq (chunks : List Bytes) (k : ℕ) : nextEvent chunks k =
    (eventEnd.split (pending (chunks.take k) ++ (chunks.drop k).flatten)).1[0]? := by
  rw [nextEvent, events_eq chunks k, List.getElem?_append_right (Nat.le_refl _), Nat.sub_self]

/-- A buffer that is longer than the next event holds the event and part of its blank
line. -/
theorem exists_part {chunks : List Bytes} {k : ℕ} {event : Bytes} (h : nextEvent chunks k = some event)
    (hlength : event.length ≤ (pending (chunks.take k)).length) :
    ∃ part, pending (chunks.take k) = event ++ part := by
  rw [nextEvent_eq] at h
  cases hsearch : eventEnd.search (pending (chunks.take k) ++ (chunks.drop k).flatten) with
  | none =>
    rw [Terminator.split_none hsearch] at h
    cases h
  | some found =>
    obtain ⟨first, rest⟩ := found
    rw [Terminator.split_some hsearch] at h
    obtain rfl : first = event := Option.some.inj h
    obtain ⟨stop, heq, -⟩ := Terminator.search_eq_some hsearch
    have hprefix : first <+: pending (chunks.take k) := by
      refine List.prefix_of_prefix_length_le ?_ (List.prefix_append _ (chunks.drop k).flatten) hlength
      rw [heq, List.append_assoc]
      exact List.prefix_append ..
    obtain ⟨part, hpart⟩ := hprefix
    exact ⟨part, hpart.symm⟩

/-- The buffer is over the limit though the next event is not. -/
theorem cutInBlankLine_iff {chunks : List Bytes} {k : ℕ} : CutInBlankLine lib aliasName limit chunks k ↔
    Clogged lib aliasName limit (chunks.take k) ∧ ∃ event, nextEvent chunks k = some event ∧
      event.length ≤ limit := by
  constructor
  · rintro ⟨hstop, event, part, hnext, hle, hpending, hlt⟩
    exact ⟨⟨hstop, hpending ▸ hlt⟩, event, hnext, hle⟩
  · rintro ⟨⟨hstop, hlt⟩, event, hnext, hle⟩
    obtain ⟨part, hpart⟩ := exists_part hnext (by omega)
    exact ⟨hstop, event, part, hnext, hle, hpart, hpart ▸ hlt⟩

/-! ### Judgements of size -/

theorem length_le_of_judge {event : Bytes} (h : ∀ e, (judge lib aliasName limit event).2 ≠ .refuse e) :
    event.length ≤ limit := by
  by_contra hlong
  refine h (.gateway "upstream_event_too_large" 502) ?_
  rw [judge, if_pos (Nat.lt_of_not_le hlong)]

/-- The `json` module raises no `GatewayError`, so an event that is refused as too large
is. -/
theorem lt_length_of_judge (hloads : ∀ text code status, lib.loads false text ≠ .error (.gateway code status))
    (hdumps : ∀ value code status, lib.dumps value ≠ .error (.gateway code status)) {event : Bytes}
    (h : (judge lib aliasName limit event).2 = .refuse (.gateway "upstream_event_too_large" 502)) :
    limit < event.length := by
  by_contra hshort
  rw [judge, if_neg hshort] at h
  split at h
  · rename_i e hparse
    obtain rfl := Verdict.refuse.inj h
    unfold parseEvent at hparse
    split at hparse
    · unfold parseLines at hparse
      split at hparse
      · cases hparse
      · split at hparse
        · cases hparse
        · split at hparse
          · split at hparse
            · have hcode := Except.error.inj hparse
              simp at hcode
            · cases hparse
          · have hcode := Except.error.inj hparse
            simp at hcode
          · rename_i e hread
            rw [Except.error.inj hparse] at hread
            exact hloads _ _ _ hread
    · cases hparse
  · cases h
  · cases h
  · split at h
    · cases h
    · rename_i e hwrite
      rw [Verdict.refuse.inj h] at hwrite
      exact hdumps _ _ _ hwrite

/-- What a relay says of the events it has been through, and of the one it stopped at. -/
theorem relay_sizes (lib : Lib) (aliasName : Str) (limit : ℕ) (events : List Bytes) :
    (∀ i < (relay lib aliasName limit events).frames.length, ∃ event, events[i]? = some event ∧
      event.length ≤ limit) ∧
    match (relay lib aliasName limit events).stop with
    | none => (relay lib aliasName limit events).frames.length = events.length
    | some .done => True
    | some (.bad e) => ∃ event, events[(relay lib aliasName limit events).frames.length]? = some event ∧
      (judge lib aliasName limit event).2 = .refuse e := by
  induction events with
  | nil => exact ⟨fun i hi => absurd hi (Nat.not_lt_zero i), rfl⟩
  | cons event events ih =>
    obtain ⟨hsizes, hstop⟩ := ih
    -- an event that is not refused is within the limit
    have hsize : ∀ verdict, (judge lib aliasName limit event).2 = verdict → (∀ e, verdict ≠ .refuse e) →
        event.length ≤ limit := by
      rintro verdict rfl h
      exact length_le_of_judge h
    cases hjudge : judge lib aliasName limit event with
    | mk counts verdict =>
      cases verdict with
      | forward frame =>
        have hone : relayOne lib aliasName limit event = ⟨[frame], counts, none⟩ := by rw [relayOne, hjudge]
        rw [relay, hone, Relay.append_of_none rfl]
        refine ⟨fun i hi => ?_, ?_⟩
        · cases i with
          | zero => exact ⟨event, rfl, hsize (.forward frame) (by rw [hjudge]) (by rintro _ ⟨⟩)⟩
          | succ i => exact hsizes i (Nat.lt_of_succ_lt_succ hi)
        · dsimp only
          cases hrest : (relay lib aliasName limit events).stop with
          | none =>
            rw [hrest] at hstop
            exact congrArg (· + 1) hstop
          | some stop =>
            rw [hrest] at hstop
            cases stop with
            | done => trivial
            | bad e => exact hstop
      | done =>
        have hone : relayOne lib aliasName limit event = ⟨[doneFrame], counts, some .done⟩ := by
          rw [relayOne, hjudge]
        rw [relay, hone, Relay.append_of_stop rfl]
        refine ⟨fun i hi => ?_, trivial⟩
        obtain rfl : i = 0 := Nat.lt_one_iff.1 hi
        exact ⟨event, rfl, hsize .done (by rw [hjudge]) (by rintro _ ⟨⟩)⟩
      | refuse e =>
        have hone : relayOne lib aliasName limit event = ⟨[], counts, some (.bad e)⟩ := by
          rw [relayOne, hjudge]
        rw [relay, hone, Relay.append_of_stop rfl]
        exact ⟨fun i hi => absurd hi (Nat.not_lt_zero i), event, rfl, by rw [hjudge]⟩

/-! ### Runs -/

section

variable {chunks : List Bytes} {n : ℕ}

/-- The events of the first chunks are the first events. -/
theorem getElem?_events {i : ℕ} (hi : i < (events (chunks.take n)).length) :
    (events chunks)[i]? = (events (chunks.take n))[i]? := by
  rw [events_eq chunks n, List.getElem?_append_left hi]

/-- The frames of the first chunks stand for events within the limit. -/
theorem relayed_sizes {i : ℕ} {event : Bytes}
    (hi : i < (relayed lib aliasName limit (chunks.take n)).frames.length)
    (hget : (events chunks)[i]? = some event) : event.length ≤ limit := by
  obtain ⟨event', hget', hle⟩ := (relay_sizes lib aliasName limit (events (chunks.take n))).1 i hi
  rw [getElem?_events (List.getElem?_eq_some_iff.1 hget').1, hget'] at hget
  obtain rfl := Option.some.inj hget
  exact hle

/-- If nothing has stopped the stream, the next event is the one after the frames. -/
theorem nextEvent_of_frames (h : (relayed lib aliasName limit (chunks.take n)).stop = none) :
    (events chunks)[(relayed lib aliasName limit (chunks.take n)).frames.length]? = nextEvent chunks n := by
  have hstop := (relay_sizes lib aliasName limit (events (chunks.take n))).2
  change match (relayed lib aliasName limit (chunks.take n)).stop with
    | none => _
    | some .done => _
    | some (.bad e) => _ at hstop
  rw [h] at hstop
  rw [nextEvent, ← hstop]
  rfl

/-- An event over the limit that is next stays next, as long as nothing stops the
stream. -/
theorem nextEvent_of_le {k : ℕ} (hnk : n ≤ k) (hstop : (relayed lib aliasName limit (chunks.take k)).stop = none)
    (hlong : ∀ event, nextEvent chunks n = some event → limit < event.length) :
    ∀ event, nextEvent chunks k = some event → limit < event.length := by
  have htake : (chunks.take k).take n = chunks.take n := by rw [List.take_take, Nat.min_eq_left hnk]
  have hmore := events_eq (chunks.take k) n
  rw [htake] at hmore
  rcases Nat.lt_or_ge (events (chunks.take n)).length (events (chunks.take k)).length with hlt | hge
  · -- the event is complete by then, and would have been refused
    obtain ⟨event, hget⟩ : ∃ event, (events (chunks.take k))[(events (chunks.take n)).length]? = some event :=
      ⟨_, List.getElem?_eq_getElem hlt⟩
    have hnext : nextEvent chunks n = some event := by rw [nextEvent, getElem?_events hlt, hget]
    have hframes := (relay_sizes lib aliasName limit (events (chunks.take k))).2
    change match (relayed lib aliasName limit (chunks.take k)).stop with
      | none => _
      | some .done => _
      | some (.bad e) => _ at hframes
    rw [hstop] at hframes
    have hframed : (events (chunks.take n)).length < (relayed lib aliasName limit (chunks.take k)).frames.length := by
      change _ < (relay lib aliasName limit (events (chunks.take k))).frames.length
      omega
    have hle := relayed_sizes hframed hnext
    have hlt := hlong event hnext
    omega
  · have hlength : (events (chunks.take k)).length = (events (chunks.take n)).length := by
      refine Nat.le_antisymm hge ?_
      rw [hmore, List.length_append]
      omega
    intro event hnext
    rw [nextEvent, hlength] at hnext
    exact hlong event hnext

end

/-- **The size limit is one on events**, unless a chunk ends inside a blank line and takes
the buffer over the limit. -/
theorem size_refused_iff (lib : Lib) (aliasName : Str) (limit me : ℕ) (exchange : Exchange) (w w' : World)
    (r : Except Err Unit) (l : List Entry)
    (hloads : ∀ text code status, lib.loads false text ≠ .error (.gateway code status))
    (hdumps : ∀ value code status, lib.dumps value ≠ .error (.gateway code status))
    (hrun : (driven me).Run (sseLoop lib aliasName limit me exchange) w [] r w' l) :
    SizeByEvent limit exchange.response.upstream.body.chunks r l ↔
      ∀ k ≤ exchange.response.upstream.body.chunks.length,
        ¬CutInBlankLine lib aliasName limit exchange.response.upstream.body.chunks k := by
  have hstart : At lib aliasName limit me exchange.response.upstream.body.chunks 0 []
      (w.calls me).event.usage (w.calls me).event.streamOutcome w [] :=
    ⟨rfl, rfl, trivial, rfl, rfl⟩
  have hends := hrun.ends (wp_sseLoop hstart)
  generalize exchange.response.upstream.body = stream at hends ⊢
  -- a cut is one of the first chunks that clog, or comes where nothing has stopped the stream
  have hcut : ∀ n stop, Unclogged lib aliasName limit stream.chunks n →
      (relayed lib aliasName limit (stream.chunks.take n)).stop = some stop →
      ∀ k, ¬CutInBlankLine lib aliasName limit stream.chunks k := by
    intro n stop hfree hstop k hcut
    rw [cutInBlankLine_iff] at hcut
    rcases Nat.lt_or_ge k n with hlt | hge
    · exact hfree k hlt hcut.1
    · have htake : (stream.chunks.take k).take n = stream.chunks.take n := by
        rw [List.take_take, Nat.min_eq_left hge]
      rw [← htake] at hstop
      have hgone := hcut.1.1
      rw [← relayed_take hstop, hstop] at hgone
      cases hgone
  cases r with
  | ok u =>
    obtain ⟨n, m, -, hfree, hstop, hat⟩ := hends
    refine ⟨fun _ k _ => hcut n _ hfree hstop k, fun _ => ⟨fun i event hi hget => ?_, nofun⟩⟩
    rw [hat.frames] at hi
    exact relayed_sizes hi hget
  | error e =>
    obtain ⟨n, m, hn, hfree, hraised, hat⟩ := hends
    have hforwarded : ∀ i event, i < (frames l).length → (events stream.chunks)[i]? = some event →
        event.length ≤ limit := by
      intro i event hi hget
      rw [hat.frames] at hi
      exact relayed_sizes hi hget
    rcases hraised with ⟨e', hstop, rfl⟩ | ⟨hclogged, rfl⟩ | ⟨hstop, rfl, hfree', -⟩
    · -- a bad event
      refine ⟨fun _ k _ => hcut n _ hfree hstop k, fun _ => ⟨hforwarded, fun he event hget => ?_⟩⟩
      obtain rfl : e' = .gateway "upstream_event_too_large" 502 := Err.exc.inj (Except.error.inj he)
      have hbad := (relay_sizes lib aliasName limit (events (stream.chunks.take n))).2
      change match (relayed lib aliasName limit (stream.chunks.take n)).stop with
        | none => _
        | some .done => _
        | some (.bad e) => _ at hbad
      rw [hstop] at hbad
      obtain ⟨event', hget', hjudge⟩ := hbad
      have hrefused : (events (stream.chunks.take n))[(relayed lib aliasName limit
          (stream.chunks.take n)).frames.length]? = some event' := hget'
      rw [hat.frames, getElem?_events (List.getElem?_eq_some_iff.1 hrefused).1, hrefused] at hget
      obtain rfl := Option.some.inj hget
      exact lt_length_of_judge hloads hdumps hjudge
    · -- a buffer over the limit
      have hnext := nextEvent_of_frames hclogged.1
      constructor
      · rintro ⟨-, hrefused⟩ k hk hcut
        rw [cutInBlankLine_iff] at hcut
        have hnk : n ≤ k := by
          by_contra hlt
          exact hfree k (by omega) hcut.1
        obtain ⟨event, hevent, hle⟩ := hcut.2
        have hlong : ∀ event, nextEvent stream.chunks n = some event → limit < event.length := by
          rw [← hnext, ← hat.frames]
          exact hrefused rfl
        have hlt := nextEvent_of_le hnk hcut.1.1 hlong event hevent
        omega
      · refine fun hno => ⟨hforwarded, fun _ event hget => ?_⟩
        rw [hat.frames, hnext] at hget
        by_contra hshort
        exact hno n hn (cutInBlankLine_iff.2 ⟨hclogged, event, hget, Nat.le_of_not_lt hshort⟩)
    · -- the end of the stream: there is no next event
      refine ⟨fun _ k hk hcut => hfree' k (by omega) (cutInBlankLine_iff.1 hcut).1, fun _ =>
        ⟨hforwarded, fun _ event hget => ?_⟩⟩
      rw [hat.frames, nextEvent_of_frames hstop, nextEvent, List.take_length] at hget
      exact absurd (List.getElem?_eq_some_iff.1 hget).1 (lt_irrefl _)

namespace Demo

/-- The run of the `try` of `sse_body`, with a limit. -/
def limitedRun (limit : ℕ) (chunks : List Bytes) : Except Err Unit × World × List Entry :=
  exec surroundings (sseLoop Application.Demo.lib (lit "m") limit 0 (exchange chunks)) Application.Demo.world []

theorem limitedRun_run (limit : ℕ) (chunks : List Bytes) :
    (driven 0).Run (sseLoop Application.Demo.lib (lit "m") limit 0 (exchange chunks)) Application.Demo.world []
      (limitedRun limit chunks).1 (limitedRun limit chunks).2.1 (limitedRun limit chunks).2.2 :=
  run_of_exec surroundings surroundings_taken rfl

/-- A stream of an event of twelve bytes, and one that ends it. -/
def twelve : Bytes := encode "hello world!".toList

end Demo

/-- A cut right after an event that is as long as it may be. -/
theorem exact_event_accepted :
    SizeByEvent 12 [Demo.twelve, [10, 10] ++ doneFrame] (Demo.limitedRun 12 [Demo.twelve, [10, 10] ++ doneFrame]).1
      (Demo.limitedRun 12 [Demo.twelve, [10, 10] ++ doneFrame]).2.2 ↔
    ∀ k ≤ 2, ¬CutInBlankLine Application.Demo.lib (lit "m") 12 [Demo.twelve, [10, 10] ++ doneFrame] k :=
  size_refused_iff Application.Demo.lib (lit "m") 12 0 (Demo.exchange [Demo.twelve, [10, 10] ++ doneFrame])
    Application.Demo.world _ _ _ (fun _ _ _ => nofun) (fun _ _ _ => nofun) (Demo.limitedRun_run 12 _)

/-- **A cut inside the blank line** has the same event refused. -/
theorem cut_event_refused :
    ¬SizeByEvent 12 [Demo.twelve ++ [10], 10 :: doneFrame] (Demo.limitedRun 12 [Demo.twelve ++ [10], 10 :: doneFrame]).1
      (Demo.limitedRun 12 [Demo.twelve ++ [10], 10 :: doneFrame]).2.2 := by
  have hraised : (Demo.limitedRun 12 [Demo.twelve ++ [10], 10 :: doneFrame]).1 =
      .error (gatewayError "upstream_event_too_large") := by decide +kernel
  have hnext : (events [Demo.twelve ++ [10], 10 :: doneFrame])[(frames (Demo.limitedRun 12
      [Demo.twelve ++ [10], 10 :: doneFrame]).2.2).length]? = some Demo.twelve := by decide +kernel
  intro h
  have hlong := h.2 hraised Demo.twelve hnext
  exact absurd hlong (by decide +kernel)

end Ingress
end SwitchyardGateway
