import TreeExport.Http.Fetch

/-!
What a fetch sends. It opens with its request, and whatever it sends behind that belongs to the same request,
after more redirects. What comes out depends on the network through the messages sent only.
-/

namespace TreeExport

namespace Http

variable {network other : Network} {request : Request} {message : Message} {reply : Reply}

/-! ### Single steps -/

theorem follow_of_error {fault : Fault} (failed : network message = .error fault) (limit : Nat) :
    follow network message (limit + 1) = ⟨[message], .error fault⟩ :=
  Exchange.bind_of_error failed _

theorem follow_of_stays (given : network message = .ok reply) (stays : reply.location? = none)
    (limit : Nat) : follow network message (limit + 1) = ⟨[message], .ok reply⟩ := by
  rw [follow, Exchange.bind_of_ok given, stays]
  rfl

theorem follow_of_moved {location : String} (given : network message = .ok reply)
    (moved : reply.location? = some location) (limit : Nat) :
    follow network message (limit + 1) =
      ⟨message :: (follow network (message.redirect location) limit).sent,
        (follow network (message.redirect location) limit).result⟩ := by
  rw [follow, Exchange.bind_of_ok given, moved]
  rfl

/-! ### What is sent -/

theorem belongs_of_mem_sent {limit : Nat} : ∀ next ∈ (follow network message limit).sent,
    next.request = message.request ∧ message.redirects ≤ next.redirects := by
  induction limit generalizing message with
  | zero => exact List.forall_mem_nil _
  | succ limit ih =>
      have here : ∀ next ∈ [message],
          next.request = message.request ∧ message.redirects ≤ next.redirects :=
        List.forall_mem_singleton.mpr ⟨rfl, Nat.le_refl _⟩
      cases given : network message with
      | error fault =>
          rw [follow_of_error given]
          exact here
      | ok reply =>
          cases moved : reply.location? with
          | none =>
              rw [follow_of_stays given moved]
              exact here
          | some location =>
              rw [follow_of_moved given moved]
              refine List.forall_mem_cons.mpr ⟨here message List.mem_cons_self, ?_⟩
              intro next sent
              obtain ⟨same, further⟩ := ih next sent
              exact ⟨same, Nat.le_of_succ_le further⟩

theorem exists_sent_follow (network : Network) (message : Message) (limit : Nat) :
    ∃ later, (follow network message (limit + 1)).sent = message :: later ∧
      ∀ next ∈ later, next.request = message.request ∧ message.redirects < next.redirects := by
  cases given : network message with
  | error fault => exact ⟨[], by rw [follow_of_error given], List.forall_mem_nil _⟩
  | ok reply =>
      cases moved : reply.location? with
      | none => exact ⟨[], by rw [follow_of_stays given moved], List.forall_mem_nil _⟩
      | some location => exact ⟨_, by rw [follow_of_moved given moved], belongs_of_mem_sent⟩

theorem sent_fetchJson (network : Network) (request : Request) :
    (fetchJson network request).sent = (follow network request.message (redirectLimit + 1)).sent := by
  rw [fetchJson, Exchange.sent_bind_ofExcept, Exchange.sent_mapError]

def Message.Opens (service : String) (message : Message) : Prop :=
  message.redirects = 0 ∧ message.request.url = service

instance (service : String) : DecidablePred (Message.Opens service) :=
  fun _ => inferInstanceAs (Decidable (_ ∧ _))

theorem filter_opens_fetchJson (network : Network) (request : Request) (service : String) :
    (fetchJson network request).sent.filter (fun message => message.Opens service) =
      if request.url = service then [request.message] else [] := by
  obtain ⟨later, sent, behind⟩ := exists_sent_follow network request.message redirectLimit
  have none : later.filter (fun message => message.Opens service) = [] := by
    refine List.filter_eq_nil_iff.mpr fun message member => ?_
    have further : 0 < message.redirects := (behind message member).2
    simp [Message.Opens, Nat.ne_of_gt further]
  rw [sent_fetchJson, sent, List.filter_cons, none]
  simp [Message.Opens, Request.message]

theorem request_of_mem_sent_fetchJson (sent : message ∈ (fetchJson network request).sent) :
    message.request = request := by
  rw [sent_fetchJson] at sent
  exact (belongs_of_mem_sent message sent).1

/-! ### Networks that agree on what is sent -/

theorem follow_congr {limit : Nat}
    (agree : ∀ next ∈ (follow network message limit).sent, other next = network next) :
    follow other message limit = follow network message limit := by
  induction limit generalizing message with
  | zero => rfl
  | succ limit ih =>
      have first : other message = network message := by
        obtain ⟨later, sent, _⟩ := exists_sent_follow network message limit
        exact agree message (sent ▸ List.mem_cons_self)
      cases given : network message with
      | error fault => rw [follow_of_error given, follow_of_error (first.trans given)]
      | ok reply =>
          cases moved : reply.location? with
          | none => rw [follow_of_stays given moved, follow_of_stays (first.trans given) moved]
          | some location =>
              rw [follow_of_moved given moved] at agree ⊢
              rw [follow_of_moved (first.trans given) moved,
                ih fun next sent => agree next (List.mem_cons_of_mem message sent)]

theorem fetchJson_congr (agree : ∀ message ∈ (fetchJson network request).sent, other message = network message) :
    fetchJson other request = fetchJson network request := by
  rw [sent_fetchJson] at agree
  rw [fetchJson, fetchJson, follow_congr agree]

end Http

end TreeExport
