import TreeExport.Yaml.Stream
import TreeExport.Proofs.Yaml.Token

/-!
The tokens of a whole text are tokens of it. Each step of a scan keeps its place in the text and adds only tokens
that the text has there, and a fault that stops the scan is one that the text shows.
-/

namespace TreeExport

namespace Yaml

namespace Scan

structure Within (source : List Char) (scan : Scan) : Prop where
  place : scan.cursor.In source
  tokens : ∀ token ∈ scan.tokens, token.Within source

variable {source : List Char} {scan : Scan} {token : Token}

theorem Within.push (within : scan.Within source) (isToken : token.Within source) :
    (scan.push token).Within source := by
  refine ⟨within.place, fun other member => ?_⟩
  rcases Array.mem_push.mp member with old | rfl
  · exact within.tokens other old
  · exact isToken

theorem Within.insert (within : scan.Within source) (isToken : token.Within source) (place : Nat) :
    ∀ other ∈ scan.tokens.insertIdxIfInBounds place token, other.Within source := by
  intro other member
  rw [Array.insertIdxIfInBounds] at member
  split at member
  · rcases Array.mem_insertIdx.mp member with rfl | old
    · exact isToken
    · exact within.tokens other old
  · exact within.tokens other member

theorem Within.skipBlanks (within : scan.Within source) (fuel : Nat) : (scan.skipBlanks fuel).Within source := by
  induction fuel generalizing scan with
  | zero => exact within
  | succ fuel ih =>
      have spaces := within.place.skipWhile (· = ' ')
      rw [Scan.skipBlanks]
      split
      · split
        · exact ih ⟨(spaces.skipWhile _).lineBreak, within.tokens⟩
        · exact ⟨spaces.skipWhile _, within.tokens⟩
      · split
        · exact ih ⟨spaces.lineBreak, within.tokens⟩
        · exact ⟨spaces, within.tokens⟩

theorem Within.unwind (within : scan.Within source) (inside : Nat → Bool) :
    (scan.unwind inside).Within source := by
  rw [Scan.unwind]
  split
  · exact within
  · refine ⟨within.place, fun token member => ?_⟩
    rcases Array.mem_append.mp member with old | ended
    · exact within.tokens token old
    · rw [(Array.mem_replicate.mp ended).2]
      trivial

theorem Within.openBlock (within : scan.Within source) (isToken : token.Within source) (column place : Nat) :
    (scan.openBlock column place token).Within source := by
  rw [Scan.openBlock]
  split
  · exact ⟨within.place, within.insert isToken place⟩
  · exact within

theorem Within.mark (within : scan.Within source) (isToken : token.Within source) (length : Nat) :
    (scan.mark token length).Within source :=
  Within.push ⟨within.place.skip length, within.tokens⟩ isToken

/-! ### Steps that may fail -/

/-- Whether a step of a scan fails within a text, or goes on in it. -/
def Goes (source : List Char) (result : Except Error Scan) : Prop :=
  Yields (Error.Within source) (Scan.Within source) result

theorem goes_pure (within : scan.Within source) : Goes source (pure scan) :=
  within

theorem goes_ite {condition : Prop} [Decidable condition] {first second : Except Error Scan}
    (goes : condition → Goes source first) (goes' : ¬ condition → Goes source second) :
    Goes source (if condition then first else second) := by
  split
  · exact goes ‹_›
  · exact goes' ‹_›

theorem yields_release (key : PendingKey) : Yields (Error.Within source) (fun _ => True) (release key) := by
  rw [release]
  split <;> trivial

theorem yields_refreshKey (scan : Scan) (key : Option PendingKey) :
    Yields (Error.Within source) (fun _ => True) (scan.refreshKey key) := by
  rw [refreshKey.eq_def]
  split
  · trivial
  · split
    · exact yields_release _
    · trivial

theorem goes_refreshKeys (within : scan.Within source) : Goes source scan.refreshKeys := by
  rw [refreshKeys]
  apply (yields_mapM fun key _ => scan.yields_refreshKey key).bind
  intro outer _
  apply (scan.yields_refreshKey scan.pending).bind
  intro pending _
  exact ⟨within.place, within.tokens⟩

theorem goes_dropKey (within : scan.Within source) : Goes source scan.dropKey := by
  rw [dropKey]
  split
  · exact within
  · exact (yields_release _).bind fun _ _ => ⟨within.place, within.tokens⟩

theorem goes_saveKey (within : scan.Within source) : Goes source scan.saveKey := by
  rw [saveKey]
  split
  · exact (goes_dropKey within).bind fun _ dropped => ⟨dropped.place, dropped.tokens⟩
  · exact within

theorem goes_openBlockHere (within : scan.Within source) (isToken : token.Within source) :
    Goes source (scan.openBlockHere token) := by
  rw [openBlockHere]
  split
  · exact within
  · split
    · exact within.openBlock isToken _ _
    · trivial

theorem goes_finish (within : scan.Within source) : Goes source scan.finish := by
  rw [finish]
  exact (goes_dropKey (within.unwind _)).bind fun _ dropped => dropped.push trivial

variable {read : Cursor → Except Error (Token × Cursor)}

theorem goes_fetchOutside (within : scan.Within source)
    (reads : ∀ cursor : Cursor, cursor.In source → Cursor.Reads source (Token.Within source) (read cursor)) :
    Goes source (scan.fetchOutside read) := by
  rw [fetchOutside]
  apply (goes_dropKey (within.unwind _)).bind
  intro dropped kept
  exact (reads _ kept.place).bind fun _ found => Within.push ⟨found.2, kept.tokens⟩ found.1

theorem goes_fetchNode (within : scan.Within source)
    (reads : ∀ cursor : Cursor, cursor.In source → Cursor.Reads source (Token.Within source) (read cursor)) :
    Goes source (scan.fetchNode read) := by
  rw [fetchNode]
  apply (goes_saveKey within).bind
  intro saved kept
  exact (reads _ kept.place).bind fun _ found => Within.push ⟨found.2, kept.tokens⟩ found.1

theorem goes_fetchOpening (within : scan.Within source) (isToken : token.Within source) :
    Goes source (scan.fetchOpening token) := by
  rw [fetchOpening]
  apply (goes_saveKey within).bind
  intro _ kept
  refine goes_pure (Within.mark ?_ isToken 1)
  exact ⟨kept.place, kept.tokens⟩

theorem goes_fetchClosing (within : scan.Within source) (isToken : token.Within source) :
    Goes source (scan.fetchClosing token) := by
  rw [fetchClosing]
  apply (goes_dropKey within).bind
  intro dropped kept
  split
  · trivial
  · refine goes_pure (Within.mark ?_ isToken 1)
    exact ⟨kept.place, kept.tokens⟩

theorem goes_fetchFlowEntry (within : scan.Within source) : Goes source scan.fetchFlowEntry := by
  have isToken : Token.flowEntry.Within source := trivial
  rw [fetchFlowEntry]
  apply (goes_dropKey within).bind
  intro _ kept
  refine goes_pure (Within.mark ?_ isToken 1)
  exact ⟨kept.place, kept.tokens⟩

theorem goes_fetchBlockEntry (within : scan.Within source) : Goes source scan.fetchBlockEntry := by
  have starts : Token.blockSequenceStart.Within source := trivial
  have isToken : Token.blockEntry.Within source := trivial
  rw [fetchBlockEntry]
  apply (goes_openBlockHere within starts).bind
  intro opened kept
  apply (goes_dropKey kept).bind
  intro _ kept
  refine goes_pure (Within.mark ?_ isToken 1)
  exact ⟨kept.place, kept.tokens⟩

theorem goes_fetchKey (within : scan.Within source) : Goes source scan.fetchKey := by
  have starts : Token.blockMappingStart.Within source := trivial
  have isToken : Token.key.Within source := trivial
  rw [fetchKey]
  apply (goes_openBlockHere within starts).bind
  intro opened kept
  apply (goes_dropKey kept).bind
  intro _ kept
  refine goes_pure (Within.mark ?_ isToken 1)
  exact ⟨kept.place, kept.tokens⟩

theorem goes_fetchValue (within : scan.Within source) : Goes source scan.fetchValue := by
  have starts : Token.blockMappingStart.Within source := trivial
  have isKey : Token.key.Within source := trivial
  have isToken : Token.value.Within source := trivial
  rw [fetchValue]
  split
  · rename_i key _
    have inserted := within.insert isKey key.token
    dsimp only
    split
    · refine goes_pure (Within.mark ?_ isToken 1)
      exact ⟨within.place, inserted⟩
    · refine goes_pure (Within.mark (Within.openBlock ?_ starts _ _) isToken 1)
      exact ⟨within.place, inserted⟩
  · apply (goes_openBlockHere within starts).bind
    intro _ kept
    refine goes_pure (Within.mark ?_ isToken 1)
    exact ⟨kept.place, kept.tokens⟩

theorem goes_fetchBlockScalar (within : scan.Within source) (folded : Bool) :
    Goes source (scan.fetchBlockScalar folded) := by
  rw [fetchBlockScalar]
  apply (goes_dropKey within).bind
  intro dropped kept
  exact (Cursor.reads_blockScalar kept.place folded _).bind fun _ found =>
    Within.push ⟨found.2, kept.tokens⟩ found.1

theorem goes_fetchPlain (within : scan.Within source) : Goes source scan.fetchPlain := by
  rw [fetchPlain]
  apply (goes_saveKey within).bind
  intro saved kept
  have found := Cursor.readPlain_in kept.place saved.inFlow saved.indent
  exact Within.push ⟨found.2, kept.tokens⟩ found.1

theorem goes_fetch (within : scan.Within source) : Goes source scan.fetch := by
  have named (make : String → Token) (isToken : ∀ name, (make name).Within source) (cursor : Cursor)
      (inside : cursor.In source) : Cursor.Reads source (Token.Within source)
        (cursor.readAnchor.map fun read => (make read.1, read.2)) :=
    (Cursor.reads_anchor inside).map fun read further => ⟨isToken read.1, further.2⟩
  -- One case for each start of a token, in the order in which they are tried.
  rw [fetch]
  dsimp only
  refine goes_ite (fun _ => goes_fetchOutside within fun _ => Cursor.reads_directive) fun _ => ?_
  refine goes_ite (fun _ => goes_fetchOutside within fun _ inside => ⟨trivial, inside.skip 3⟩) fun _ => ?_
  refine goes_ite (fun _ => goes_fetchOutside within fun _ inside => ⟨trivial, inside.skip 3⟩) fun _ => ?_
  refine goes_ite (fun _ => goes_fetchOpening within trivial) fun _ => ?_
  refine goes_ite (fun _ => goes_fetchOpening within trivial) fun _ => ?_
  refine goes_ite (fun _ => goes_fetchClosing within trivial) fun _ => ?_
  refine goes_ite (fun _ => goes_fetchClosing within trivial) fun _ => ?_
  refine goes_ite (fun _ => goes_fetchFlowEntry within) fun _ => ?_
  refine goes_ite (fun _ => goes_fetchBlockEntry within) fun _ => ?_
  refine goes_ite (fun _ => goes_fetchKey within) fun _ => ?_
  refine goes_ite (fun _ => goes_fetchValue within) fun _ => ?_
  refine goes_ite (fun _ => goes_fetchNode within (named _ fun _ => trivial)) fun _ => ?_
  refine goes_ite (fun _ => goes_fetchNode within (named _ fun _ => trivial)) fun _ => ?_
  refine goes_ite (fun mark => goes_fetchNode within fun _ inside => Cursor.reads_tag inside ?_) fun _ => ?_
  · exact Cursor.mem_of_peek within.place mark (by decide)
  refine goes_ite (fun _ => goes_fetchBlockScalar within false) fun _ => ?_
  refine goes_ite (fun _ => goes_fetchBlockScalar within true) fun _ => ?_
  refine goes_ite (fun _ => goes_fetchNode within fun _ inside => Cursor.reads_quoted inside false) fun _ => ?_
  refine goes_ite (fun _ => goes_fetchNode within fun _ inside => Cursor.reads_quoted inside true) fun _ => ?_
  exact goes_ite (fun _ => goes_fetchPlain within) fun _ => trivial

theorem goes_next (within : scan.Within source) : Goes source scan.next := by
  rw [next]
  apply (goes_refreshKeys (within.skipBlanks _)).bind
  intro refreshed kept
  dsimp only
  split
  · exact goes_finish (kept.unwind _)
  · exact goes_fetch (kept.unwind _)

end Scan

structure TokenStream.Within (source : List Char) (stream : TokenStream) : Prop where
  tokens : ∀ token ∈ stream.tokens, token.Within source
  fault : ∀ fault, stream.fault = some fault → fault.Within source

namespace Scan

variable {source : List Char} {scan : Scan}

theorem Within.ended (within : scan.Within source) {fault : Option Error}
    (shown : ∀ failure, fault = some failure → failure.Within source) :
    (TokenStream.mk scan.tokens.toList fault).Within source :=
  ⟨fun token member => within.tokens token (Array.mem_toList_iff.mp member), shown⟩

/-- A whole run keeps a scan in its text. -/
theorem run_within (within : scan.Within source) (fuel : Nat) : (scan.run fuel).Within source := by
  induction fuel generalizing scan with
  | zero =>
      rw [run.eq_def]
      exact within.ended fun failure stopped => by cases stopped; trivial
  | succ fuel ih =>
      have goes := goes_next within
      rw [run.eq_def]
      dsimp only
      cases stepped : scan.next with
      | error failure =>
          rw [stepped] at goes
          exact within.ended fun _ stopped => by cases stopped; exact goes
      | ok later =>
          rw [stepped] at goes
          have kept : later.Within source := goes
          dsimp only
          split
          · exact kept.ended fun _ stopped => by cases stopped
          · exact ih kept

end Scan

theorem TokenStream.within_ofText (source : List Char) : (TokenStream.ofText source).Within source := by
  rw [ofText]
  split
  · apply Scan.run_within
    have start : (Cursor.start source).In source := List.suffix_refl source
    refine ⟨?_, fun token member => absurd member (Array.not_mem_empty token)⟩
    rw [Scan.start]
    dsimp only
    split
    · exact start.step
    · exact start
  · exact ⟨fun token member => absurd member List.not_mem_nil,
      fun _ stopped => by cases stopped; trivial⟩

end Yaml

end TreeExport
