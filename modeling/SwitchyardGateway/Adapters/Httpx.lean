/-
# The transport

`HttpxTransport` of `adapters/httpx.py`: the request it builds for one attempt, and
what it makes of the failures of the client.  The client is the parameter `client`.
-/

import SwitchyardGateway.Domain

namespace SwitchyardGateway
namespace Httpx

open Python

/-- What `httpx` raises, as far as the adapter tells it apart.  A `ConnectTimeout` is
a `TimeoutException` too, and all of these are an `HTTPError`. -/
inductive Failure where
  | connectError
  | connectTimeout
  | timeout
  | http
  | other (e : Err)

/-- The arguments of `client.build_request`. -/
structure Request where
  method : Str
  url : Str
  json : Payload
  headers : Headers

/-- `url.rstrip("/")`. -/
def rstripSlash (url : Str) : Str := (url.reverse.dropWhile fun c => c = 47).reverse

/-- The headers of an attempt: the forwarded ones, the gateway's own, and the key of
the endpoint if it has one. -/
def outgoing (endpoint : Endpoint) (headers : Headers) : Headers :=
  let outgoing := Dict.merge headers [(lit "content-type", lit "application/json"),
    (lit "accept-encoding", lit "identity")]
  if endpoint.apiKey = [] then outgoing
  else outgoing.set (lit "authorization") (lit "Bearer " ++ endpoint.apiKey)

/-- The request of an attempt. -/
def buildRequest (endpoint : Endpoint) (request : Payload) (headers : Headers) : Request where
  method := lit "POST"
  url := rstripSlash endpoint.baseUrl ++ lit "/chat/completions"
  json := request
  headers := outgoing endpoint headers

/-- The failure of an attempt as the application sees it. -/
def translate : Failure → Err
  | .connectError | .connectTimeout => .exc .connectFailure
  | .timeout => gatewayError "upstream_timeout" 504
  | .http => gatewayError "upstream_transport_failed"
  | .other e => e

/-- `HttpxTransport.send`. -/
def HttpxTransport.send (client : Request → Except Failure Upstream) (endpoint : Endpoint)
    (request : Payload) (headers : Headers) : Except Err Upstream :=
  (client (buildRequest endpoint request headers)).mapError translate

/-! ### The headers of an attempt -/

section

variable {endpoint : Endpoint} {headers headers' : Headers}

theorem mem_set {d : Headers} {k v : Str} {p : Str × Str} (h : p ∈ Dict.set d k v) :
    p ∈ d ∨ p = (k, v) := by
  induction d with
  | nil => exact .inr (List.mem_singleton.1 h)
  | cons q d ih =>
    unfold Dict.set at h
    split at h
    · rename_i hk
      rcases List.mem_cons.1 h with rfl | h
      · exact .inr (by rw [hk])
      · exact .inl (List.mem_cons_of_mem _ h)
    · rcases List.mem_cons.1 h with rfl | h
      · exact .inl List.mem_cons_self
      · exact (ih h).imp_left (List.mem_cons_of_mem _)

/-- A name that is sent was forwarded, or is one of the gateway's own. -/
theorem name_mem_outgoing {p : Str × Str} (h : p ∈ outgoing endpoint headers) :
    (∃ v, (p.1, v) ∈ headers) ∨ p.1 = lit "content-type" ∨ p.1 = lit "accept-encoding" ∨
      endpoint.apiKey ≠ [] ∧ p = (lit "authorization", lit "Bearer " ++ endpoint.apiKey) := by
  have hmerge : ∀ p ∈ Dict.merge headers [(lit "content-type", lit "application/json"),
      (lit "accept-encoding", lit "identity")],
      (∃ v, (p.1, v) ∈ headers) ∨ p.1 = lit "content-type" ∨ p.1 = lit "accept-encoding" := by
    intro p hp
    rcases List.mem_append.1 hp with hp | hp
    · obtain ⟨⟨k, v⟩, hq, rfl⟩ := List.mem_map.1 hp
      exact .inl ⟨v, hq⟩
    · have hown := List.mem_of_mem_filter hp
      rw [List.mem_cons, List.mem_singleton] at hown
      rcases hown with rfl | rfl
      · exact .inr (.inl rfl)
      · exact .inr (.inr rfl)
  unfold outgoing at h
  dsimp only at h
  split at h
  · rcases hmerge p h with h | h | h
    · exact .inl h
    · exact .inr (.inl h)
    · exact .inr (.inr (.inl h))
  · rename_i hkey
    rcases mem_set h with h | rfl
    · rcases hmerge p h with h | h | h
      · exact .inl h
      · exact .inr (.inl h)
      · exact .inr (.inr (.inl h))
    · exact .inr (.inr (.inr ⟨hkey, rfl⟩))

/-- The key of the endpoint reads back, if it has one. -/
theorem lookup_authorization (hkey : endpoint.apiKey ≠ []) (headers : Headers) :
    (outgoing endpoint headers).lookup (lit "authorization") =
      some (lit "Bearer " ++ endpoint.apiKey) := by
  unfold outgoing
  rw [if_neg hkey, Dict.lookup_set_self]

/-- Equal maps of forwarded headers make equal maps of headers. -/
theorem outgoing_congr (endpoint : Endpoint)
    (h : ∀ name, headers.lookup name = headers'.lookup name) (name : Str) :
    (outgoing endpoint headers).lookup name = (outgoing endpoint headers').lookup name := by
  have hmerge : ∀ own : Headers, (Dict.merge headers own).lookup name =
      (Dict.merge headers' own).lookup name := by
    intro own
    rw [Dict.lookup_merge, Dict.lookup_merge, h]
  unfold outgoing
  split
  · exact hmerge _
  · by_cases hname : name = lit "authorization"
    · rw [hname, Dict.lookup_set_self, Dict.lookup_set_self]
    · rw [Dict.lookup_set_ne hname, Dict.lookup_set_ne hname, hmerge]

end

end Httpx
end SwitchyardGateway
