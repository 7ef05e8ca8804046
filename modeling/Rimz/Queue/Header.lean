import Rimz.Queue.Select

/-!
# Message headers in a submitted prompt

A delivered message opens with a structured header. The rollup classifies a submitted prompt by the
headers of its sections: only keepalives, only wakes, or nothing a human wrote.
-/

namespace Rimz.Queue
open Rimz.Lib

inductive HeaderKind where
  | agent
  | user
  | notice (notice : HarnessNotice)
  deriving DecidableEq

/-- serde's reading of a notice from its `snake_case` text; an unknown one is kept verbatim. -/
def HarnessNotice.ofText (text : String) : HarnessNotice :=
  match text with
  | "cache_keepalive" => .cacheKeepalive
  | "deadline" => .deadline
  | "subagent_report" => .subagentReport
  | "agent_report" => .agentReport
  | "wait" => .wait
  | "signal" => .signal
  | "stage" => .stage
  | "team_report" => .teamReport
  | "subagent_paused" => .subagentPaused
  | "subagent_stalled" => .subagentStalled
  | "team_stalled" => .teamStalled
  | "message_undelivered" => .messageUndelivered
  | "message_queued" => .messageQueued
  | unknown => .other unknown

def HarnessNotice.isOther : HarnessNotice → Bool
  | other _ => true
  | _ => false

def classifyHeaderStart (line : List Char) (sender : Option (List Char)) : Option HeaderKind :=
  if line = "Type: AGENT_MESSAGE".toList then some .agent
  else if line = "Type: USER_MESSAGE".toList then some .user
  else do
    let token ← dropLeading "Type: ".toList line
    let first ← token.head?
    if first.isUpper && token.tail.all (fun c => c.isUpper || c.isDigit || c == '_') then
      let notice := HarnessNotice.ofText (String.ofList (token.map Char.toLower))
      if notice.isOther && sender != some "From: @rimz".toList then none else some (.notice notice)
    else none

/-- `parse_message_header`: the kind, the sender's handle and the body. -/
def parseMessageHeader (text : List Char) : Option (HeaderKind × List Char × List Char) := do
  let (kind, rest) ← splitOncePat ['\n'] text
  let (sender, rest) ← splitOncePat ['\n'] rest
  let kind ← classifyHeaderStart kind (some sender)
  let handle ← parseSenderHandle (← dropLeading "From: @".toList sender)
  let body ← dropLeading "Content:\n".toList rest
  some (kind, '@' :: handle, body)

/-- A section may start here: the first line, with the second beside it, opens a header. -/
def startsHeader (text : List Char) : Bool :=
  let first := text.takeWhile (· ≠ '\n')
  let second := match text.drop first.length with
    | [] => none
    | _ :: rest => some (rest.takeWhile (· ≠ '\n'))
  (classifyHeaderStart first second).isSome

/-- The loop of `split_batched_prompt`: `segment` is the open section's text so far. Each round
passes a blank line, so the length of the text is fuel enough. -/
def splitBatched : Nat → List Char → List Char → List (List Char)
  | 0, segment, text => [segment ++ text]
  | fuel + 1, segment, text =>
    match splitOncePat ['\n', '\n'] text with
    | none => [segment ++ text]
    | some (before, after) =>
      let blank := after.takeWhile (· = '\n')
      let next := after.drop blank.length
      if startsHeader next then (segment ++ before) :: splitBatched fuel [] next
      else splitBatched fuel (segment ++ before ++ ['\n', '\n'] ++ blank) next

def splitBatchedPrompt (text : List Char) : List (List Char) := splitBatched text.length [] text

/-- The kind a section's header names. -/
def sectionKind (segment : List Char) : Option HeaderKind :=
  (parseMessageHeader (trimStart segment)).map (·.1)

def promptIsKeepaliveOnly (prompt : String) : Bool :=
  trim prompt.toList != [] && (splitBatchedPrompt prompt.toList).all fun segment =>
    sectionKind segment == some (.notice .cacheKeepalive)

def promptIsWakeOnly (prompt : String) : Bool :=
  trim prompt.toList != [] && (splitBatchedPrompt prompt.toList).all fun segment =>
    sectionKind segment == some (.notice .wait) || sectionKind segment == some (.notice .signal)

/-- `prompt_is_harness_delivered`, through `classify_submitted_prompt` without records: a blank
section is skipped, and one with no header or with a user's header is the user's. -/
def promptIsHarnessDelivered (prompt : String) : Bool :=
  trim prompt.toList != [] && (splitBatchedPrompt prompt.toList).all fun segment =>
    trim segment == [] || (sectionKind segment).any (· != .user)

example : promptIsKeepaliveOnly
    "Type: CACHE_KEEPALIVE\nFrom: @rimz\nContent:\nping\n\nType: CACHE_KEEPALIVE\nFrom: @rimz\nContent:\nping"
      = true := by
  decide +kernel

example : promptIsKeepaliveOnly "Type: CACHE_KEEPALIVE\nFrom: @rimz\nContent:\nping\n\nType: USER_MESSAGE\nFrom: @user\nContent:\nhi"
      = false := by
  decide +kernel

end Rimz.Queue
