import TreeExport.Feed.Basic
import TreeExport.Schema.Record

/-!
Repositories with the most stars.
-/

namespace TreeExport

open Schema

structure Repository where
  name : String
  fullName : String
  description : String
  stars : Int
  forks : Int
  language : String
  url : String
  ownerAvatar : String
  isDemo : Bool
  deriving DecidableEq

namespace Repository

def fields (repository : Repository) : List (String × Value) := [
  ("name", .text repository.name), ("full_name", .text repository.fullName),
  ("description", .text repository.description), ("stars", .int repository.stars),
  ("forks", .int repository.forks), ("language", .text repository.language),
  ("url", .text repository.url), ("owner_avatar", .text repository.ownerAvatar)]

def check (value : Value) : Checked Repository :=
  (fieldsOf .value "GitHubRepo" value).andThen fun entries =>
    Repository.mk <$> required entries "name" text <*> required entries "full_name" text
      <*> required entries "description" text <*> required entries "stars" integer
      <*> required entries "forks" integer <*> required entries "language" text
      <*> required entries "url" text <*> required entries "owner_avatar" text
      <*> optional entries "is_demo" false boolean

def ofValue (value : Value) : Except Failure Repository :=
  (check value).named "GitHubRepo"

def partOr (item : Value) (name default : String) : Value :=
  match item.part name with
  | .ok value => if value.isTruthy then value else .text default
  | .error _ => .text default

def ofItem (item : Value) : Except Feed.Error Repository := do
  let part (value : Value) (name : String) : Except Feed.Error Value :=
    (value.part name).mapError .access
  let name ← part item "name"
  let fullName ← part item "full_name"
  let stars ← part item "stargazers_count"
  let forks ← part item "forks_count"
  let url ← part item "html_url"
  let ownerAvatar ← part (← part item "owner") "avatar_url"
  let fields := Value.ofKeyed [
    ("name", name), ("full_name", fullName),
    ("description", partOr item "description" "No description available"),
    ("stars", stars), ("forks", forks), ("language", partOr item "language" "Unknown"),
    ("url", url), ("owner_avatar", ownerAvatar)]
  (ofValue fields).mapError .invalid

def searchUrl : String := "https://api.github.com/search/repositories"

def searchQuery (language : Option String) : String :=
  match language.filter (· != "") with
  | some language => s!"language:{language} stars:>1000"
  | none => "stars:>5000"

def request (language : Option String) (perPage : Int) (timeout : Http.Seconds) :
    Http.Request where
  url := searchUrl
  parameters := some [
    ("q", .text (searchQuery language)),
    ("sort", .text "stars"),
    ("order", .text "desc"),
    ("per_page", .int perPage)]
  headers := some [("Accept", "application/vnd.github.v3+json")]
  timeout

def ofDocument (document : Value) : Except Feed.Error (List Repository) := do
  let found ← (document.part "items").mapError .access
  let items ← found.items.mapError .access
  items.mapM ofItem

def demo : List Repository := [
  { name := "react"
    fullName := "facebook/react"
    description := "The library for web and native user interfaces"
    stars := 228000
    forks := 46500
    language := "JavaScript"
    url := "https://github.com/facebook/react"
    ownerAvatar := "https://avatars.githubusercontent.com/u/69631?v=4"
    isDemo := true },
  { name := "vue"
    fullName := "vuejs/vue"
    description := "Vue.js is a progressive JavaScript framework"
    stars := 207000
    forks := 33700
    language := "TypeScript"
    url := "https://github.com/vuejs/vue"
    ownerAvatar := "https://avatars.githubusercontent.com/u/6128107?v=4"
    isDemo := true },
  { name := "tensorflow"
    fullName := "tensorflow/tensorflow"
    description := "An Open Source Machine Learning Framework"
    stars := 185000
    forks := 74000
    language := "Python"
    url := "https://github.com/tensorflow/tensorflow"
    ownerAvatar := "https://avatars.githubusercontent.com/u/15658638?v=4"
    isDemo := true }]

def live (network : Http.Network) (language : Option String) (perPage : Int)
    (timeout : Http.Seconds) : Http.Exchange Feed.Error (List Repository) := do
  let document ← (Http.fetchJson network (request language perPage timeout)).mapError .fetch
  .ofExcept (ofDocument document)

theorem result_live (network : Http.Network) (language : Option String) (perPage : Int)
    (timeout : Http.Seconds) : (live network language perPage timeout).result =
      (Http.fetchJson network (request language perPage timeout)).result.mapError .fetch >>= ofDocument :=
  Http.Exchange.result_bind _ _

def fetch (network : Http.Network) (language : Option String) (perPage : Int)
    (timeout : Http.Seconds) : Http.Exchange Feed.Error (Feed.Outcome (List Repository)) :=
  (live network language perPage timeout).mapResult (Feed.withDemo "GitHub repositories" demo)

end Repository

end TreeExport
