import Mathlib.Data.List.Nodup
import TreeExport.Feed.Dashboard
import TreeExport.Proofs.Http.Sending

/-!
What a dashboard asks for. Every feed makes its request once, whatever comes back, and the dashboard depends on
the network through the messages sent only.
-/

namespace TreeExport

namespace Dashboard

variable {network other : Http.Network} {config : ProviderConfig} {request : Http.Request}

/-- Whether a run makes a request, and makes no other one to the same service. -/
structure AsksOnce (report : Report) (request : Http.Request) : Prop where
  opened : report.sent.filter (fun message => message.Opens request.url) =
    [⟨request, Http.Url.ofString request.url, 0⟩]
  alone : ∀ message ∈ report.sent, message.request.url = request.url → message.request = request

def requests (config : ProviderConfig) : List Http.Request := [
  CryptoPrice.request config.cryptoIds (timeout config),
  Weather.request (City.ofKey (City.resolveKey config.weatherCity)) (timeout config),
  Repository.request config.githubLanguage config.githubPerPage (timeout config)]

theorem sent_build (network : Http.Network) (config : ProviderConfig) : (build network config).sent =
    (requests config).flatMap fun request => (Http.fetchJson network request).sent := by
  simp only [build, CryptoPrice.fetch, CryptoPrice.live, Weather.fetch, Weather.live, Repository.fetch,
    Repository.live, Http.Exchange.sent_mapResult, Http.Exchange.sent_bind_ofExcept,
    Http.Exchange.sent_mapError, requests, List.flatMap_cons, List.flatMap_nil, List.append_nil,
    List.append_assoc]

theorem nodup_urls (config : ProviderConfig) : ((requests config).map Http.Request.url).Nodup :=
  (by decide : [CryptoPrice.url, Weather.url, Repository.searchUrl].Nodup)

theorem filter_opens_eq_nil {others : List Http.Request} (apart : request.url ∉ others.map Http.Request.url) :
    (others.flatMap fun other => (Http.fetchJson network other).sent).filter
      (fun message => message.Opens request.url) = [] := by
  rw [List.filter_flatMap]
  refine List.flatMap_eq_nil_iff.mpr fun other member => ?_
  have elsewhere : other.url ≠ request.url := fun same => apart (same ▸ List.mem_map_of_mem member)
  rw [Http.filter_opens_fetchJson, if_neg elsewhere]

theorem asksOnce_of_mem (network : Http.Network) (listed : request ∈ requests config) :
    AsksOnce (build network config) request where
  opened := by
    obtain ⟨before, after, split⟩ := List.append_of_mem listed
    have apart := nodup_urls config
    rw [split, List.map_append, List.map_cons, List.nodup_append, List.nodup_cons] at apart
    obtain ⟨_, ⟨notAfter, _⟩, disjoint⟩ := apart
    have notBefore : request.url ∉ before.map Http.Request.url :=
      fun member => disjoint _ member _ List.mem_cons_self rfl
    rw [sent_build, split, List.flatMap_append, List.flatMap_cons, List.filter_append, List.filter_append,
      filter_opens_eq_nil notBefore, filter_opens_eq_nil notAfter, Http.filter_opens_fetchJson, if_pos rfl]
    rfl
  alone := by
    intro message sent same
    rw [sent_build] at sent
    obtain ⟨maker, member, made⟩ := List.mem_flatMap.mp sent
    obtain rfl := Http.request_of_mem_sent_fetchJson made
    exact List.inj_on_of_nodup_map (nodup_urls config) member listed same

/-! ### Networks that agree on what is sent -/

theorem build_congr (agree : ∀ message ∈ (build network config).sent, other message = network message) :
    build other config = build network config := by
  have same : ∀ request ∈ requests config,
      Http.fetchJson other request = Http.fetchJson network request := by
    intro request listed
    refine Http.fetchJson_congr fun message sent => agree message ?_
    rw [sent_build]
    exact List.mem_flatMap.mpr ⟨request, listed, sent⟩
  simp only [requests, List.forall_mem_cons] at same
  obtain ⟨prices, weather, repositories, _⟩ := same
  simp only [build, CryptoPrice.fetch, CryptoPrice.live, Weather.fetch, Weather.live, Repository.fetch,
    Repository.live, prices, weather, repositories]

end Dashboard

end TreeExport
