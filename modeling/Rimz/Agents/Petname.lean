import Rimz.Agents.State
import Rimz.Lib.Search

/-!
# Agent names

`agents/petname.rs`: which handles are valid, and the deterministic pet name of a session. The hash
of a seed and an attempt is a parameter, and so are the kinds of the plugins the machine loads.
-/

namespace Rimz.Agents
open Rimz.Lib

/-- What the fold reads of its surroundings. -/
structure NamingEnv where
  /-- The first eight bytes of SHA-256 of the seed and the attempt. -/
  hashU64 : String → Nat → Nat
  /-- The kinds of the loaded plugins. -/
  pluginKinds : List AgentKind := []

/-- `BUILTINS`, by kind. -/
def builtinKinds : List AgentKind :=
  ["claude", "codex", "amp", "copilot", "kimi", "pi", "opencode", "antigravity", "cursor", "droid",
    "kiro", "qwen", "grok", "hermes", "qoder", "omp", "muse", "minimax"]

def NamingEnv.knownKinds (env : NamingEnv) : List AgentKind := builtinKinds ++ env.pluginKinds

/-- `default_context_window` of the kind's definition; a plugin has none. -/
def defaultContextWindow (kind : AgentKind) : Option Nat :=
  if kind = "claude" then some 200000 else if kind = "kimi" then some 262144 else none

def adjectives : List String :=
  ["able", "acute", "amber", "ample", "apt", "bold", "brave", "bright", "candid", "chief", "civil",
    "clever", "cool", "crisp", "direct", "eager", "early", "easy", "exact", "fair", "firm", "fit",
    "glad", "gold", "grand", "green", "handy", "happy", "hardy", "honest", "ideal", "jolly",
    "kind", "level", "light", "lucid", "major", "merry", "mint", "modern", "neat", "noble",
    "novel", "open", "patient", "plain", "prime", "prompt", "proper", "proud", "quick", "real",
    "right", "robust", "round", "simple", "smart", "solid", "sound", "spry", "stable", "still",
    "stout", "tidy", "true", "trusty", "useful", "valid", "vast", "warm", "whole", "wise", "witty",
    "young", "zesty", "active", "choice", "dapper", "deft", "even", "expert", "polite", "sure",
    "upbeat"]

def nouns : List String :=
  ["arc", "atlas", "badge", "beam", "beacon", "binder", "block", "brook", "cable", "camp",
    "canyon", "cargo", "cipher", "cliff", "cloud", "cobalt", "comet", "compass", "copper", "coral",
    "dock", "drift", "echo", "fig", "flare", "forge", "frame", "frost", "garden", "gate", "glyph",
    "grain", "grove", "haven", "hazel", "hinge", "index", "iris", "isle", "jolt", "kernel",
    "keystone", "lagoon", "lane", "store", "lens", "linen", "lumen", "maple", "marker", "mesa",
    "meter", "mint", "mirror", "module", "needle", "notch", "nova", "oak", "parcel", "path",
    "pillar", "pixel", "plaza", "portal", "ridge", "river", "rivet", "route", "saddle", "signal",
    "silver", "slate", "spark", "spire", "spring", "square", "stone", "strand", "summit",
    "thicket", "thread", "tower", "trace", "valley", "vector", "vista", "wicket", "yard"]

def reservedAgentWords : List String :=
  ["compact", "exec", "focus", "fork", "list", "ls", "molt", "profiles", "show", "stop", "term",
    "wait"]

def headerPseudoHandles : List String := ["user", "rimz"]

/-- `basic_valid_name`. Trimming changes nothing of a name made of letters, digits and hyphens, so
only emptiness is left of the first two checks. -/
def basicValidName (name : String) : Bool :=
  name != "" && name.toList.all (fun c => c.isAlphanum || c == '-')
    && name != "all" && name != "me" && !reservedAgentWords.contains name

def validAgentName (env : NamingEnv) (name : String) : Bool :=
  basicValidName name && !"wait-".toList.isPrefixOf name.toList
    && !env.knownKinds.any fun kind =>
      name == kind || (kind.toList ++ ['-']).isPrefixOf name.toList

def unsuffixedAttempts : Nat := 64

/-- The candidate of one attempt of `mint_from_seed`. -/
def mintCandidate (env : NamingEnv) (seed : String) (attempt : Nat) : String :=
  let value := env.hashU64 seed attempt
  let adjective := adjectives.getD (value % adjectives.length) ""
  let noun := nouns.getD (value / 2 ^ 16 % nouns.length) ""
  if attempt < unsuffixedAttempts then adjective ++ "-" ++ noun
  else adjective ++ "-" ++ noun ++ "-" ++ toString attempt

/-- `mint_for_session`. The attempts are `u32`s; `none` when no attempt serves, where the source
does not return. -/
def mintForSession (env : NamingEnv) (agentId : AgentSessionId) (taken : String → Bool) :
    Option String :=
  (findFrom (fun attempt =>
      let candidate := mintCandidate env agentId attempt
      validAgentName env candidate && !headerPseudoHandles.contains candidate && !taken candidate)
    (2 ^ 32) 0).map (mintCandidate env agentId)

end Rimz.Agents
