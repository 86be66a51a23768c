import TreeExport.Proofs.Http.Sending
import TreeExport.Proofs.Outcome

/-!
When a request is answered with a document: its redirects lead to a reply of success, which holds a text, which
is a document.
-/

namespace TreeExport

namespace Http

variable {network : Network} {request : Request} {message : Message} {reply : Reply} {document : Value}

/-- Whether a message leads to a reply after some number of redirects. -/
inductive Leads (network : Network) : Message → Nat → Reply → Prop
  | arrived {message : Message} {reply : Reply} : network message = .ok reply → reply.location? = none →
      Leads network message 0 reply
  | redirected {message : Message} {first last : Reply} {location : String} {count : Nat} :
      network message = .ok first → first.location? = some location →
      Leads network (message.redirect location) count last → Leads network message (count + 1) last

theorem follow_of_leads {count limit : Nat} (leads : Leads network message count reply) (few : count < limit) :
    (follow network message limit).result = .ok reply := by
  induction leads generalizing limit with
  | arrived given stays =>
      obtain ⟨limit, rfl⟩ := Nat.exists_eq_succ_of_ne_zero (Nat.ne_of_gt few)
      rw [follow_of_stays given stays]
  | redirected given moved _ ih =>
      obtain ⟨limit, rfl⟩ := Nat.exists_eq_succ_of_ne_zero (Nat.ne_of_gt (Nat.zero_lt_of_lt few))
      rw [follow_of_moved given moved]
      exact ih (Nat.lt_of_succ_lt_succ few)

theorem follow_eq_ok_iff {limit : Nat} : (follow network message limit).result = .ok reply ↔
    ∃ count, count < limit ∧ Leads network message count reply := by
  constructor
  · intro followed
    induction limit generalizing message with
    | zero => exact absurd followed nofun
    | succ limit ih =>
        cases given : network message with
        | error fault =>
            rw [follow_of_error given] at followed
            exact absurd followed nofun
        | ok first =>
            cases moved : first.location? with
            | none =>
                rw [follow_of_stays given moved] at followed
                obtain rfl := Except.ok.inj followed
                exact ⟨0, Nat.succ_pos limit, .arrived given moved⟩
            | some location =>
                rw [follow_of_moved given moved] at followed
                obtain ⟨count, few, leads⟩ := ih followed
                exact ⟨count + 1, Nat.succ_lt_succ few, .redirected given moved leads⟩
  · rintro ⟨count, few, leads⟩
    exact follow_of_leads leads few

inductive Answers (network : Network) (request : Request) (document : Value) : Prop
  | intro {count : Nat} {reply : Reply} {text : String}
      (leads : Leads network request.message count reply) (few : count ≤ redirectLimit)
      (succeeded : 200 ≤ reply.status ∧ reply.status ≤ 299)
      (decoded : Text.decodeDocument reply.body = .ok text) (read : Json.read text = .ok document)

theorem result_fetchJson (network : Network) (request : Request) : (fetchJson network request).result = (do
    let reply ← (follow network request.message (redirectLimit + 1)).result.mapError request.failure
    readReply request reply) := by
  rw [fetchJson, Exchange.result_bind]
  rfl

theorem fetchJson_eq_ok_iff :
    (fetchJson network request).result = .ok document ↔ Answers network request document := by
  rw [result_fetchJson]
  constructor
  · intro fetched
    obtain ⟨reply, followed, fetched⟩ := exists_of_bind_eq_ok fetched
    obtain ⟨count, few, leads⟩ := follow_eq_ok_iff.mp (mapError_eq_ok followed)
    rw [readReply] at fetched
    split at fetched
    · rename_i succeeded
      obtain ⟨text, decoded, fetched⟩ := exists_of_bind_eq_ok fetched
      exact .intro leads (Nat.le_of_lt_succ few) succeeded (mapError_eq_ok decoded) (mapError_eq_ok fetched)
    · exact absurd fetched nofun
  · rintro ⟨leads, few, succeeded, decoded, read⟩
    rw [follow_of_leads leads (Nat.lt_succ_of_le few), mapError_ok, bind_of_eq_ok rfl, readReply,
      if_pos succeeded, readBody, decoded, mapError_ok, bind_of_eq_ok rfl, read, mapError_ok]

theorem Answers.unique {other : Value} (first : Answers network request document)
    (second : Answers network request other) : document = other :=
  Except.ok.inj ((fetchJson_eq_ok_iff.mpr first).symm.trans (fetchJson_eq_ok_iff.mpr second))

end Http

end TreeExport
