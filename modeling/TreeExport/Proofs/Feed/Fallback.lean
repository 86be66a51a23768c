import TreeExport.Feed.Dashboard
import TreeExport.Proofs.Binary64.Rounding
import TreeExport.Proofs.Http.Answer

/-!
Demo data in place of live data. If exchanges fail in transit only, every failure of the prices and of the
repositories is made up for, and every one of the weather except a number beyond all finite ones.
-/

namespace TreeExport

/-! ### Exchanges -/

namespace Http

/-- Whether no exchange fails in any other way than on its way. -/
def FailsInTransit (network : Network) : Prop :=
  ∀ message fault, network message = .error fault →
    fault.kind = .connection ∨ fault.kind = .timeout ∨ fault.kind = .transfer

variable {network : Network} {request : Request} {fault : Fault} {cause : FetchError}

theorem kind_of_follow (transit : FailsInTransit network) {message : Message} {limit : Nat}
    (failed : (follow network message limit).result = .error fault) :
    fault.kind = .connection ∨ fault.kind = .timeout ∨ fault.kind = .transfer := by
  induction limit generalizing message with
  | zero =>
      obtain rfl := Except.error.inj failed
      exact .inr (.inr rfl)
  | succ limit ih =>
      cases given : network message with
      | error broken =>
          rw [follow_of_error given] at failed
          obtain rfl := Except.error.inj failed
          exact transit message broken given
      | ok reply =>
          cases moved : reply.location? with
          | none =>
              rw [follow_of_stays given moved] at failed
              exact absurd failed nofun
          | some location =>
              rw [follow_of_moved given moved] at failed
              exact ih failed

theorem ofExchange_of_readBody {reply : Reply} (failed : readBody request reply = .error cause) :
    cause.ofExchange = true := by
  rcases bind_eq_error_iff.mp failed with undecoded | ⟨text, _, unread⟩
  · obtain ⟨_, _, rfl⟩ := mapError_eq_error_iff.mp undecoded
    rfl
  · obtain ⟨_, _, rfl⟩ := mapError_eq_error_iff.mp unread
    rfl

theorem ofExchange_of_fetchJson (transit : FailsInTransit network)
    (failed : (fetchJson network request).result = .error cause) : cause.ofExchange = true := by
  rw [result_fetchJson] at failed
  rcases bind_eq_error_iff.mp failed with broken | ⟨reply, _, refused⟩
  · obtain ⟨fault, given, rfl⟩ := mapError_eq_error_iff.mp broken
    rcases kind_of_follow transit given with kind | kind | kind
    · rw [Request.failure, kind]
      rfl
    · rw [Request.failure, kind]
      rfl
    · rw [Request.failure, kind]
      rfl
  · rw [readReply] at refused
    split at refused
    · exact ofExchange_of_readBody refused
    · obtain rfl := Except.error.inj refused
      rfl

end Http

/-! ### Errors that escape -/

namespace Feed

variable {α β : Type}

def Escapes (live : Except Error α) : Prop :=
  ∃ cause, live = .error cause ∧ cause.isRecoverable = false

def settled (subject : String) (demo : α) : Except Error α → Outcome α
  | .ok data => ⟨data, none⟩
  | .error cause => ⟨demo, some s!"{subject} unavailable ({cause.message}); using demo data."⟩

theorem withDemo_of_not_escapes {live : Except Error α} (caught : ¬ Escapes live) (subject : String)
    (demo : α) : withDemo subject demo live = .ok (settled subject demo live) := by
  cases live with
  | ok data => rfl
  | error cause =>
      have recoverable : cause.isRecoverable = true := by
        by_contra unrecoverable
        exact caught ⟨cause, rfl, Bool.eq_false_iff.mpr unrecoverable⟩
      rw [withDemo, if_pos recoverable, settled]

theorem exists_withDemo_of_escapes {live : Except Error α} (escapes : Escapes live) (subject : String)
    (demo : α) : ∃ cause, withDemo subject demo live = .error cause := by
  obtain ⟨cause, rfl, unrecoverable⟩ := escapes
  exact ⟨cause, by rw [withDemo, if_neg (Bool.eq_false_iff.mp unrecoverable)]⟩

theorem not_escapes_ok (value : α) : ¬ Escapes (.ok value) := by
  rintro ⟨cause, same, _⟩
  exact absurd same nofun

theorem escapes_bind {first : Except Error α} {further : α → Except Error β} :
    Escapes (first >>= further) ↔ Escapes first ∨ ∃ value, first = .ok value ∧ Escapes (further value) := by
  constructor
  · rintro ⟨cause, failed, unrecoverable⟩
    rcases bind_eq_error_iff.mp failed with early | ⟨value, done, late⟩
    · exact .inl ⟨cause, early, unrecoverable⟩
    · exact .inr ⟨value, done, cause, late, unrecoverable⟩
  · rintro (⟨cause, early, unrecoverable⟩ | ⟨value, done, cause, late, unrecoverable⟩)
    · exact ⟨cause, bind_eq_error_iff.mpr (.inl early), unrecoverable⟩
    · exact ⟨cause, bind_eq_error_iff.mpr (.inr ⟨value, done, late⟩), unrecoverable⟩

theorem not_escapes_mapError {ε : Type} {first : Except ε α} {wrap : ε → Error}
    (recoverable : ∀ cause, first = .error cause → (wrap cause).isRecoverable = true) :
    ¬ Escapes (first.mapError wrap) := by
  rintro ⟨_, failed, unrecoverable⟩
  obtain ⟨cause, given, rfl⟩ := mapError_eq_error_iff.mp failed
  rw [recoverable cause given] at unrecoverable
  exact absurd unrecoverable nofun

theorem not_escapes_mapM {f : α → Except Error β} {items : List α} (each : ∀ item, ¬ Escapes (f item)) :
    ¬ Escapes (items.mapM f) := by
  induction items with
  | nil => exact not_escapes_ok []
  | cons item items ih =>
      rw [List.mapM_cons, escapes_bind]
      rintro (first | ⟨result, _, later⟩)
      · exact each item first
      · rcases escapes_bind.mp later with rest | ⟨results, _, last⟩
        · exact ih rest
        · exact not_escapes_ok _ last

theorem not_escapes_fetchJson {network : Http.Network} (transit : Http.FailsInTransit network)
    (request : Http.Request) : ¬ Escapes ((Http.fetchJson network request).result.mapError .fetch) :=
  not_escapes_mapError fun _ failed => Http.ofExchange_of_fetchJson transit failed

theorem not_escapes_part (value : Value) (name : String) : ¬ Escapes ((value.part name).mapError .access) :=
  not_escapes_mapError fun _ _ => rfl

end Feed

open Feed (Escapes escapes_bind not_escapes_ok not_escapes_mapError not_escapes_part)

/-! ### Prices and repositories -/

namespace CryptoPrice

theorem not_escapes_ofDocument (document : Value) : ¬ Escapes (ofDocument document) := by
  cases document with
  | list items =>
      intro escapes
      rcases escapes_bind.mp escapes with invalid | ⟨prices, _, last⟩
      · exact not_escapes_mapError (fun _ _ => rfl) invalid
      · exact not_escapes_ok _ last
  | _ =>
      rintro ⟨_, failed, unrecoverable⟩
      obtain rfl := Except.error.inj failed
      exact absurd unrecoverable nofun

theorem not_escapes_live {network : Http.Network} (transit : Http.FailsInTransit network) (ids : List String)
    (timeout : Http.Seconds) : ¬ Escapes (live network ids timeout).result := by
  rw [result_live, escapes_bind]
  rintro (unfetched | ⟨document, _, unread⟩)
  · exact Feed.not_escapes_fetchJson transit _ unfetched
  · exact not_escapes_ofDocument document unread

end CryptoPrice

namespace Repository

theorem not_escapes_ofItem (item : Value) : ¬ Escapes (ofItem item) := by
  simp only [ofItem, escapes_bind, not_escapes_part, false_or]
  rintro ⟨_, _, _, _, _, _, _, _, _, _, _, _, _, _, invalid⟩
  exact not_escapes_mapError (fun _ _ => rfl) invalid

theorem not_escapes_ofDocument (document : Value) : ¬ Escapes (ofDocument document) := by
  rw [ofDocument, escapes_bind]
  rintro (missing | ⟨found, _, unread⟩)
  · exact not_escapes_part document "items" missing
  · rcases escapes_bind.mp unread with closed | ⟨items, _, later⟩
    · exact not_escapes_mapError (fun _ _ => rfl) closed
    · exact Feed.not_escapes_mapM not_escapes_ofItem later

theorem not_escapes_live {network : Http.Network} (transit : Http.FailsInTransit network)
    (language : Option String) (perPage : Int) (timeout : Http.Seconds) :
    ¬ Escapes (live network language perPage timeout).result := by
  rw [result_live, escapes_bind]
  rintro (unfetched | ⟨document, _, unread⟩)
  · exact Feed.not_escapes_fetchJson transit _ unfetched
  · exact not_escapes_ofDocument document unread

end Repository

/-! ### The weather -/

/-- Whether the number of a value lies beyond all finite ones. -/
def Value.IsHuge (value : Value) : Prop :=
  value.toNumber = .error .tooLarge ∨ ∃ negative, value.toNumber = .ok (.infinite negative)

namespace Weather

/-- Whether a number of a report is too large for an integer. Only the first value that is no good counts:
the temperature is looked at before the code, and the code before the wind. -/
inductive Overflows (document : Value) : Prop
  | temperature {current value : Value} (report : document.part "current_weather" = .ok current)
      (given : current.part "temperature" = .ok value) (huge : value.IsHuge)
  | code {current value : Value} {temperature : Binary64.Finite} {negative : Bool}
      (report : document.part "current_weather" = .ok current)
      (given : current.part "temperature" = .ok value) (finite : value.toNumber = .ok (.finite temperature))
      (code : current.part "weathercode" = .ok (.float (.infinite negative)))
  | wind {current value code speed : Value} {temperature : Binary64.Finite} {number : Int}
      (report : document.part "current_weather" = .ok current)
      (given : current.part "temperature" = .ok value) (finite : value.toNumber = .ok (.finite temperature))
      (coded : current.part "weathercode" = .ok code) (read : code.toInteger = .ok number)
      (wind : current.part "windspeed" = .ok speed) (huge : speed.IsHuge)

theorem toNumber_ne_rounding (value : Value) (reason : Binary64.RoundingError) :
    value.toNumber ≠ .error (.rounding reason) := by
  intro failed
  unfold Value.toNumber at failed
  split at failed
  · exact absurd failed nofun
  · obtain ⟨_, _, same⟩ := mapError_eq_error_iff.mp failed
    exact absurd same nofun
  · split at failed
    · split at failed
      · exact absurd failed nofun
      · exact absurd (Except.error.inj failed) nofun
    · exact absurd (Except.error.inj failed) nofun

theorem escapes_toNumber_iff {value : Value} :
    Escapes (value.toNumber.mapError .conversion) ↔ value.toNumber = .error .tooLarge := by
  constructor
  · rintro ⟨_, failed, unrecoverable⟩
    obtain ⟨cause, given, rfl⟩ := mapError_eq_error_iff.mp failed
    cases cause with
    | tooLarge => exact given
    | rounding reason => exact absurd given (toNumber_ne_rounding value reason)
    | _ => exact absurd unrecoverable nofun
  · intro tooLarge
    exact ⟨.conversion .tooLarge, by rw [tooLarge]; rfl, rfl⟩

theorem escapes_numberAt_iff {current : Value} {name : String} :
    Escapes (numberAt current name) ↔
      ∃ value, current.part name = .ok value ∧ value.toNumber = .error .tooLarge := by
  rw [numberAt, escapes_bind]
  constructor
  · rintro (missing | ⟨value, given, unread⟩)
    · exact absurd missing (not_escapes_part current name)
    · exact ⟨value, mapError_eq_ok given, escapes_toNumber_iff.mp unread⟩
  · rintro ⟨value, given, tooLarge⟩
    exact .inr ⟨value, by rw [given]; rfl, escapes_toNumber_iff.mpr tooLarge⟩

theorem escapes_toInteger_iff {value : Value} :
    Escapes (value.toInteger.mapError .conversion) ↔ ∃ negative, value = .float (.infinite negative) := by
  cases value with
  | float number =>
      cases number with
      | nan =>
          refine iff_of_false ?_ nofun
          rintro ⟨_, failed, unrecoverable⟩
          obtain rfl := Except.error.inj failed
          exact absurd unrecoverable nofun
      | infinite negative => exact iff_of_true ⟨_, rfl, rfl⟩ ⟨negative, rfl⟩
      | finite x => exact iff_of_false (not_escapes_ok _) nofun
  | text given =>
      refine iff_of_false ?_ nofun
      rintro ⟨_, failed, unrecoverable⟩
      obtain ⟨_, unread, rfl⟩ := mapError_eq_error_iff.mp failed
      obtain ⟨_, _, rfl⟩ := mapError_eq_error_iff.mp unread
      exact absurd unrecoverable nofun
  | bool | int => exact iff_of_false (not_escapes_ok _) nofun
  | _ =>
      refine iff_of_false ?_ nofun
      rintro ⟨_, failed, unrecoverable⟩
      obtain rfl := Except.error.inj failed
      exact absurd unrecoverable nofun

theorem escapes_rounded_iff {number : Binary64} :
    Escapes (rounded number) ↔ ∃ negative, number = .infinite negative := by
  cases number with
  | nan =>
      refine iff_of_false ?_ nofun
      rintro ⟨_, failed, unrecoverable⟩
      obtain rfl := Except.error.inj failed
      exact absurd unrecoverable nofun
  | infinite negative =>
      refine iff_of_true ⟨.conversion (.rounding .infinite), ?_, rfl⟩ ⟨negative, rfl⟩
      rw [rounded, Binary64.roundHalfUp_infinite]
      rfl
  | finite x =>
      obtain ⟨n, near⟩ := Binary64.exists_roundHalfUp_of_finite x
      refine iff_of_false ?_ nofun
      rw [rounded, near]
      exact not_escapes_ok n

theorem rounded_eq_ok {number : Binary64} {n : Int} (near : rounded number = .ok n) :
    ∃ x, number = .finite x := by
  cases number with
  | nan => exact absurd near nofun
  | infinite negative =>
      rw [rounded, Binary64.roundHalfUp_infinite] at near
      exact absurd near nofun
  | finite x => exact ⟨x, rfl⟩

theorem exists_rounded_of_finite (x : Binary64.Finite) : ∃ n, rounded (.finite x) = .ok n := by
  obtain ⟨n, near⟩ := Binary64.exists_roundHalfUp_of_finite x
  exact ⟨n, by rw [rounded, near]; rfl⟩

theorem exists_feelsLike_eq_finite (x : Binary64.Finite) : ∃ z, Binary64.finite x + -feelsLower = .finite z := by
  have lower_eq : -feelsLower = .finite ⟨true, 2 ^ 52, -51, by decide⟩ := by decide +kernel
  have small : Binary64.Finite.size ⟨true, 2 ^ 52, -51, by decide⟩ ≤ 2 := by
    rw [Binary64.Finite.size]
    norm_num
  rw [lower_eq]
  exact Binary64.exists_add_eq_finite x small

theorem numberAt_eq_ok {current : Value} {name : String} {number : Binary64}
    (read : numberAt current name = .ok number) :
    ∃ value, current.part name = .ok value ∧ value.toNumber = .ok number := by
  obtain ⟨value, given, converted⟩ := exists_of_bind_eq_ok read
  exact ⟨value, mapError_eq_ok given, mapError_eq_ok converted⟩

theorem numberAt_of_eq_ok {current value : Value} {name : String} {number : Binary64}
    (given : current.part name = .ok value) (converted : value.toNumber = .ok number) :
    numberAt current name = .ok number := by
  rw [numberAt, given, mapError_ok]
  exact congrArg (Except.mapError Feed.Error.conversion) converted

theorem exists_ofDocument_eq (city : City) {document current value : Value} {temperature : Binary64.Finite}
    (report : document.part "current_weather" = .ok current)
    (given : current.part "temperature" = .ok value) (finite : value.toNumber = .ok (.finite temperature)) :
    ∃ weather : Int → Int → Weather, ofDocument city document = (do
      let code ← (current.part "weathercode").mapError .access
      let number ← code.toInteger.mapError .conversion
      let speed ← numberAt current "windspeed"
      let windSpeed ← rounded speed
      return weather number windSpeed) := by
  obtain ⟨shown, near⟩ := exists_rounded_of_finite temperature
  obtain ⟨felt, sum⟩ := exists_feelsLike_eq_finite temperature
  obtain ⟨feelsLike, nearFelt⟩ := exists_rounded_of_finite felt
  rw [← sum] at nearFelt
  rw [ofDocument, report, mapError_ok]
  refine ⟨fun number windSpeed => ⟨city.name, shown, feelsLike, conditionOfCode number, windSpeed,
    usualHumidity, city.latitude, city.longitude, false⟩, ?_⟩
  have read := numberAt_of_eq_ok given finite
  exact (bind_of_eq_ok read _).trans ((bind_of_eq_ok near _).trans (bind_of_eq_ok nearFelt _))

theorem escapes_temperature {city : City} {document current value : Value}
    (report : document.part "current_weather" = .ok current)
    (given : current.part "temperature" = .ok value) (huge : value.IsHuge) :
    Escapes (ofDocument city document) := by
  refine escapes_bind.mpr (.inr ⟨current, by rw [report]; rfl, escapes_bind.mpr ?_⟩)
  rcases huge with tooLarge | ⟨negative, converted⟩
  · exact .inl (escapes_numberAt_iff.mpr ⟨value, given, tooLarge⟩)
  · refine .inr ⟨.infinite negative, numberAt_of_eq_ok given converted, escapes_bind.mpr (.inl ?_)⟩
    exact escapes_rounded_iff.mpr ⟨negative, rfl⟩

theorem escapes_wind {current speed : Value} {weather : Int → Weather}
    (wind : current.part "windspeed" = .ok speed) (huge : speed.IsHuge) :
    Escapes (do
      let speed ← numberAt current "windspeed"
      let windSpeed ← rounded speed
      return weather windSpeed) := by
  rcases huge with tooLarge | ⟨negative, converted⟩
  · exact escapes_bind.mpr (.inl (escapes_numberAt_iff.mpr ⟨speed, wind, tooLarge⟩))
  · refine escapes_bind.mpr (.inr ⟨.infinite negative, numberAt_of_eq_ok wind converted,
      escapes_bind.mpr (.inl ?_)⟩)
    exact escapes_rounded_iff.mpr ⟨negative, rfl⟩

theorem isHuge_of_escapes_wind {current : Value} {weather : Int → Weather}
    (escapes : Escapes (do
      let speed ← numberAt current "windspeed"
      let windSpeed ← rounded speed
      return weather windSpeed)) :
    ∃ speed, current.part "windspeed" = .ok speed ∧ speed.IsHuge := by
  rcases escapes_bind.mp escapes with unread | ⟨number, read, escapes⟩
  · obtain ⟨speed, wind, tooLarge⟩ := escapes_numberAt_iff.mp unread
    exact ⟨speed, wind, .inl tooLarge⟩
  · rcases escapes_bind.mp escapes with unrounded | ⟨windSpeed, _, last⟩
    · obtain ⟨negative, rfl⟩ := escapes_rounded_iff.mp unrounded
      obtain ⟨speed, wind, converted⟩ := numberAt_eq_ok read
      exact ⟨speed, wind, .inr ⟨negative, converted⟩⟩
    · exact absurd last (not_escapes_ok _)

theorem overflows_of_escapes {city : City} {document : Value}
    (escapes : Escapes (ofDocument city document)) : Overflows document := by
  have whole := escapes
  -- The fields are converted in order, so an escape at one of them shows that those before it were read.
  rcases escapes_bind.mp escapes with missing | ⟨current, report, escapes⟩
  · exact absurd missing (not_escapes_part document "current_weather")
  have report := mapError_eq_ok report
  rcases escapes_bind.mp escapes with unread | ⟨number, read, escapes⟩
  · obtain ⟨value, given, tooLarge⟩ := escapes_numberAt_iff.mp unread
    exact .temperature report given (.inl tooLarge)
  obtain ⟨value, given, converted⟩ := numberAt_eq_ok read
  rcases escapes_bind.mp escapes with unrounded | ⟨shown, near, _⟩
  · obtain ⟨negative, rfl⟩ := escapes_rounded_iff.mp unrounded
    exact .temperature report given (.inr ⟨negative, converted⟩)
  obtain ⟨temperature, rfl⟩ := rounded_eq_ok near
  obtain ⟨weather, same⟩ := exists_ofDocument_eq city report given converted
  rw [same] at whole
  rcases escapes_bind.mp whole with missing | ⟨code, coded, escapes⟩
  · exact absurd missing (not_escapes_part current "weathercode")
  have coded := mapError_eq_ok coded
  rcases escapes_bind.mp escapes with unread | ⟨number, integer, escapes⟩
  · obtain ⟨negative, rfl⟩ := escapes_toInteger_iff.mp unread
    exact .code report given converted coded
  obtain ⟨speed, wind, huge⟩ := isHuge_of_escapes_wind escapes
  exact .wind report given converted coded (mapError_eq_ok integer) wind huge

theorem escapes_of_overflows {city : City} {document : Value} (overflows : Overflows document) :
    Escapes (ofDocument city document) := by
  cases overflows with
  | temperature report given huge => exact escapes_temperature report given huge
  | code report given finite code =>
      obtain ⟨weather, same⟩ := exists_ofDocument_eq city report given finite
      rw [same, code]
      exact escapes_bind.mpr (.inr ⟨_, rfl, escapes_bind.mpr (.inl (escapes_toInteger_iff.mpr ⟨_, rfl⟩))⟩)
  | wind report given finite coded read wind huge =>
      obtain ⟨weather, same⟩ := exists_ofDocument_eq city report given finite
      rw [same, coded]
      refine escapes_bind.mpr (.inr ⟨_, rfl, ?_⟩)
      rw [read]
      exact escapes_bind.mpr (.inr ⟨_, rfl, escapes_wind wind huge⟩)

theorem escapes_live_iff {network : Http.Network} (transit : Http.FailsInTransit network) (key : String)
    (timeout : Http.Seconds) : Escapes (live network key timeout).result ↔ ∃ document,
      (Http.fetchJson network (request (City.ofKey key) timeout)).result = .ok document ∧
        Overflows document := by
  rw [result_live, escapes_bind]
  constructor
  · rintro (unfetched | ⟨document, fetched, escapes⟩)
    · exact absurd unfetched (Feed.not_escapes_fetchJson transit _)
    · exact ⟨document, mapError_eq_ok fetched, overflows_of_escapes escapes⟩
  · rintro ⟨document, fetched, overflows⟩
    exact .inr ⟨document, by rw [fetched]; rfl, escapes_of_overflows overflows⟩

end Weather

/-! ### All feeds -/

namespace Dashboard

variable {network : Http.Network} {config : ProviderConfig}

def HasOverflow (network : Http.Network) (config : ProviderConfig) : Prop :=
  let city := City.ofKey (City.resolveKey config.weatherCity)
  ∃ document, (Http.fetchJson network (Weather.request city (timeout config))).result = .ok document ∧
    Weather.Overflows document

def pricesOf (network : Http.Network) (config : ProviderConfig) : Feed.Outcome (List CryptoPrice) :=
  Feed.settled "Crypto prices" CryptoPrice.demo
    (CryptoPrice.live network config.cryptoIds (timeout config)).result

def weatherOf (network : Http.Network) (config : ProviderConfig) : Feed.Outcome Weather :=
  let key := City.resolveKey config.weatherCity
  let city := City.ofKey key
  Feed.settled s!"Weather for {city.name}" (Weather.demo city.name)
    (Weather.live network key (timeout config)).result

def repositoriesOf (network : Http.Network) (config : ProviderConfig) : Feed.Outcome (List Repository) :=
  Feed.settled "GitHub repositories" Repository.demo
    (Repository.live network config.githubLanguage config.githubPerPage (timeout config)).result

/-- Each feed gives live data or its demo data with a warning, and all of them are put together, unless the
weather has a number that is too large. -/
theorem build_settles (transit : Http.FailsInTransit network) :
    (CryptoPrice.fetch network config.cryptoIds (timeout config)).result = .ok (pricesOf network config) ∧
    (Repository.fetch network config.githubLanguage config.githubPerPage (timeout config)).result =
      .ok (repositoriesOf network config) ∧
    (¬ HasOverflow network config →
      (Weather.fetch network (City.resolveKey config.weatherCity) (timeout config)).result =
        .ok (weatherOf network config) ∧
      (build network config).warnings =
        [(pricesOf network config).warning, (weatherOf network config).warning,
          (repositoriesOf network config).warning].filterMap id ∧
      (build network config).data =
        .ok (shape (pricesOf network config).data (weatherOf network config).data
          (repositoriesOf network config).data (City.resolveKey config.weatherCity))) ∧
    (HasOverflow network config → ∃ cause, (build network config).data = .error cause) := by
  have prices : (CryptoPrice.fetch network config.cryptoIds (timeout config)).result =
      .ok (pricesOf network config) :=
    Feed.withDemo_of_not_escapes (CryptoPrice.not_escapes_live transit _ _) _ _
  have repositories :
      (Repository.fetch network config.githubLanguage config.githubPerPage (timeout config)).result =
        .ok (repositoriesOf network config) :=
    Feed.withDemo_of_not_escapes (Repository.not_escapes_live transit _ _ _) _ _
  refine ⟨prices, repositories, ?_, ?_⟩
  · intro fits
    have caught := (Weather.escapes_live_iff transit (City.resolveKey config.weatherCity) (timeout config)).not.mpr
      fits
    have weather : (Weather.fetch network (City.resolveKey config.weatherCity) (timeout config)).result =
        .ok (weatherOf network config) := Feed.withDemo_of_not_escapes caught _ _
    rw [build, prices, weather, repositories]
    exact ⟨rfl, rfl, rfl⟩
  · intro overflow
    have escapes := (Weather.escapes_live_iff transit (City.resolveKey config.weatherCity)
      (timeout config)).mpr overflow
    obtain ⟨cause, weather⟩ : ∃ cause, (Weather.fetch network (City.resolveKey config.weatherCity)
        (timeout config)).result = .error cause := Feed.exists_withDemo_of_escapes escapes _ _
    rw [build, prices, weather]
    exact ⟨cause, rfl⟩

def unreachable : Http.Network := fun _ => .error ⟨.connection, "no route"⟩

theorem build_settles_unreachable :
    Http.FailsInTransit unreachable ∧ ¬ HasOverflow unreachable default ∧
      (build unreachable default).warnings =
        [(pricesOf unreachable default).warning, (weatherOf unreachable default).warning,
          (repositoriesOf unreachable default).warning].filterMap id ∧
      (build unreachable default).data =
        .ok (shape CryptoPrice.demo (Weather.demo "New York") Repository.demo "new-york") := by
  have transit : Http.FailsInTransit unreachable := by
    intro message fault failed
    obtain rfl := Except.error.inj failed
    exact .inl rfl
  have fits : ¬ HasOverflow unreachable default := by
    rintro ⟨document, fetched, _⟩
    exact absurd fetched nofun
  exact ⟨transit, fits, (build_settles transit).2.2.1 fits |>.2⟩

def overflowing : Http.Network :=
  let report := "\x7b\"temperature\":1e999,\"weathercode\":0,\"windspeed\":1\x7d"
  fun _ => .ok ⟨200, [], ("\x7b\"current_weather\":" ++ report ++ "\x7d").toUTF8.toList⟩

/-- No demo data stand in for an infinite temperature. -/
theorem exists_build_fails : Http.FailsInTransit overflowing ∧
    (build overflowing default).data = .error (.conversion (.rounding .infinite)) := by
  have transit : Http.FailsInTransit overflowing := fun _ _ failed => absurd failed nofun
  refine ⟨transit, ?_⟩
  have shown : (match (build overflowing default).data with
      | .error cause => decide (cause = .conversion (.rounding .infinite))
      | .ok _ => false) = true := by decide +kernel
  cases built : (build overflowing default).data with
  | error cause =>
      rw [built] at shown
      rw [of_decide_eq_true shown]
  | ok data =>
      rw [built] at shown
      exact absurd shown nofun

end Dashboard

end TreeExport
