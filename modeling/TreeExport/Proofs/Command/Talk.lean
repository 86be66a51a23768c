import TreeExport.Command.Run
import TreeExport.Proofs.Console.Escape

/-!
What work in a run ends in and what it says. Saying a message never fails, so the only endings are those
that the work itself asks for.
-/

namespace TreeExport

namespace Command

/-- Whether work ends in a result and says a text, whatever was said before. -/
def Says {α : Type} (work : Talk α) (result : Except Ending α) (text : String) : Prop :=
  ∀ printed, work.run printed = (result, printed ++ text)

def messageText (console : Console) (tone : Console.Tone) (message : String) : String :=
  (console.printMessage tone message).toOption.getD ""

def messagesText (console : Console) (tone : Console.Tone) (messages : List String) : String :=
  String.join (messages.map (messageText console tone))

theorem printMessage_eq (console : Console) (tone : Console.Tone) (message : String) :
    console.printMessage tone message = .ok (messageText console tone message) := by
  obtain ⟨text, printed⟩ := Console.exists_printMessage console tone message
  rw [messageText, printed]
  rfl

section Says

variable {α β : Type} {work : Talk α} {further : α → Talk β} {value : α} {ending : Ending}
variable {result : Except Ending β} {text more : String} {console : Console} {tone : Console.Tone}

theorem says_pure : Says (pure value) (.ok value) "" :=
  fun _ => by rw [String.append_empty]; rfl

theorem says_throw : Says (throw ending : Talk α) (.error ending) "" :=
  fun _ => by rw [String.append_empty]; rfl

theorem says_put : Says (put text) (.ok ()) text :=
  fun _ => rfl

theorem says_bind (first : Says work (.ok value) text) (next : Says (further value) result more) :
    Says (work >>= further) result (text ++ more) := by
  intro printed
  rw [run_bind, first printed]
  simp only
  rw [next, String.append_assoc]

theorem says_bind_of_error (first : Says work (.error ending) text) :
    Says (work >>= further) (.error ending) text := by
  intro printed
  rw [run_bind, first printed]

theorem says_bind_quiet (first : Says work (.ok value) "") (next : Says (further value) result more) :
    Says (work >>= further) result more := by
  rw [← String.empty_append (s := more)]
  exact says_bind first next

theorem says_tell (message : String) :
    Says (tell console tone message) (.ok ()) (messageText console tone message) := by
  rw [tell, printMessage_eq]
  exact says_bind_quiet says_pure says_put

theorem says_tellAll (messages : List String) :
    Says (tellAll console tone messages) (.ok ()) (messagesText console tone messages) := by
  induction messages with
  | nil => exact says_pure
  | cons message messages ih =>
      show Says (tell console tone message >>= fun _ => tellAll console tone messages) _ _
      rw [messagesText, List.map_cons, String.join_cons]
      exact says_bind (says_tell message) ih

theorem says_refuse (message : String) :
    Says (refuse console message : Talk α) (.error (.exit refusedStatus))
      (messageText console .error ("Error: " ++ message)) := by
  rw [refuse, ← String.append_empty (s := messageText _ _ _)]
  exact says_bind (says_tell _) says_throw

end Says

end Command

end TreeExport
