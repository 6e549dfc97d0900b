import Mathlib
import MuduoIm.Data.Excerpts
import MuduoIm.Moderation.AhoCorasick

namespace MuduoIm.Moderation.ContentModerationService

open Data

/-! # The moderation service

The automaton in use is built from the enabled rows of `moderation_wordlist`,
and a text is judged by the strictest category among its matches.
-/

inductive Result where
  | pass
  | review
  | block
deriving DecidableEq, Repr

/-- How strict a verdict is. -/
def Result.rank : Result → ℕ
  | .pass => 0
  | .review => 1
  | .block => 2

structure Response where
  result : Result := .pass
  reason : String := ""
  matchedWords : List Bytes := []
deriving DecidableEq

/-- A row of `moderation_wordlist`; `updatedAt` is in seconds. -/
structure WordRow where
  word : Option Bytes
  category : Option Bytes
  enabled : Bool
  updatedAt : ℕ
deriving DecidableEq

/-- A column is read as a C string. -/
def cString (column : Bytes) : Bytes := column.takeWhile (· ≠ 0)

/-- What a row adds to the automaton, unless one of its columns is NULL. -/
def WordRow.entry (row : WordRow) : Option (Bytes × Bytes) :=
  match row.word, row.category with
  | some word, some category => some (cString word, cString category)
  | _, _ => none

/-- `IFNULL(UNIX_TIMESTAMP(updated_at)*1000, 0)`. -/
def WordRow.version (row : WordRow) : ℕ := row.updatedAt * 1000

structure Service where
  current : Option (List AhoCorasick.Node) := none
  lastVersion : ℕ := 0
  wordCount : ℕ := 0

/-- The variables of `reload`. -/
structure Loading where
  next : List AhoCorasick.Node := AhoCorasick.fresh
  maxVer : ℕ := 0
  count : ℕ := 0

/-- One row of the result of `reload`. -/
def Loading.add (loading : Loading) (row : WordRow) : Loading :=
  match row.entry with
  | some (word, category) =>
      { next := AhoCorasick.addWord loading.next word category
        maxVer := if loading.maxVer < row.version then row.version else loading.maxVer
        count := loading.count + 1 }
  | none => loading

/-- `reload` for the rows that its SELECT has returned.  `none` is a `build`
that does not end. -/
def reload (traversal : AhoCorasick.Traversal) (rows : List WordRow) : Option Service := do
  let loading := rows.foldl Loading.add {}
  let next ← AhoCorasick.build traversal loading.next
  some { current := some next, lastVersion := loading.maxVer, wordCount := loading.count }

def ban : Bytes := ascii "ban"

def review : Bytes := ascii "review"

/-- One match in the loop of `checkText`, over `hasBan` and `hasReview`. -/
def judge (has : Bool × Bool) (found : AhoCorasick.Match) : Bool × Bool :=
  if found.category = ban then (true, has.2)
  else if found.category = review then (has.1, true)
  else has

def respond (found : List AhoCorasick.Match) : Response :=
  let (hasBan, hasReview) := found.foldl judge (false, false)
  let matchedWords := found.map AhoCorasick.Match.word
  if hasBan then { result := .block, reason := "contains banned word", matchedWords }
  else if hasReview then { result := .review, reason := "needs human review", matchedWords }
  else { matchedWords }

def checkText (service : Service) (text : Bytes) : Option Response :=
  if text = [] then some {}
  else
    match service.current with
    | none => some {}
    | some ac => (AhoCorasick.search ac text).map respond

/-! ## The log -/

def Result.text : Result → String
  | .pass => "pass"
  | .review => "review"
  | .block => "block"

/-- A row of `moderation_logs`.  The sample is what `substr` leaves of the
content; `nsfwScore` is the text of the score. -/
structure LogRow where
  uid : ℤ
  contentType : String
  contentSample : ByteArray
  result : String
  reason : String
  matchedWords : Bytes
  nsfwScore : String
deriving DecidableEq

/-- The row that `logModeration` inserts. -/
def logModeration (uid : ℤ) (contentType content : String) (result : Result) (reason : String)
    (matched : List Bytes) (nsfwScore : String) : LogRow where
  uid := uid
  contentType := contentType
  contentSample := Excerpts.cut 200 "" content
  result := result.text
  reason := reason
  matchedWords := (matched.intersperse (ascii ",")).flatten
  nsfwScore := nsfwScore

end MuduoIm.Moderation.ContentModerationService
