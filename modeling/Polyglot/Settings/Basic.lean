import Polyglot.Cel.Functions
import Polyglot.Document.Basic
import Polyglot.Extraction.ByPattern
import Polyglot.Extraction.Protovalidate
import Polyglot.Session
import Polyglot.Settings.Toml

/-!
Settings: how documents are composed and updated, rules and extractors, and variables for CEL.
Every section may be missing. A file that cannot be read as settings counts as an empty one, and
entries that make no sense are passed over.
-/
namespace Polyglot

structure RuleSettings where
  language : String
  scope : String
  pattern : String
  replacement : String
  reversePattern : Option String
  reverseReplacement : Option String

structure ExtractorSettings where
  host : String
  language : String
  pattern : String
  group : Nat
  keepInHost : Bool
  standalone : Bool
  extension : Option String
  exclusive : Bool

structure Settings where
  spacing : Option Nat := none
  lifetime : Option Nat := none
  maxAttempts : Option Nat := none
  backoffMs : Option Nat := none
  rules : List RuleSettings := []
  extractors : List ExtractorSettings := []
  declarations : List (String × String) := []

/-! Meaning. -/

/-- A rule with its scope. A reverse has a pattern and a replacement. -/
def RuleSettings.rule (s : RuleSettings) : Except RuleError (Scope × Rule) := do
  let scope ← Scope.ofName s.scope
  let forward ← Substitution.make s.pattern (.template s.replacement.toList)
  match s.reversePattern, s.reverseReplacement with
  | some pattern, some replacement =>
    let backward ← Substitution.make pattern (.template replacement.toList)
    return (scope, ⟨forward, some backward⟩)
  | none, none => return (scope, ⟨forward, none⟩)
  | _, _ => throw (.incompleteReverse s.pattern)

def ExtractorSettings.extractor (s : ExtractorSettings) : Except RegistryError Extractor :=
  Extraction.byPattern {
    kind := ⟨s.language, s.extension.getD s.language, s.standalone⟩
    exclusive := s.exclusive
    pattern := s.pattern
    group := s.group
    keepInHost := s.keepInHost }

namespace Settings

/-- A child outlives at least the rebuild that it was made in. -/
def config (s : Settings) : Config :=
  let usual : Config := {}
  { spacing := s.spacing.getD usual.spacing, lifetime := max (s.lifetime.getD usual.lifetime) 1 }

def policy (s : Settings) : RetryPolicy :=
  let usual : RetryPolicy := {}
  { maxAttempts := max (s.maxAttempts.getD usual.maxAttempts) 1
    backoffMs := s.backoffMs.getD usual.backoffMs }

/-- The extractor for protobuf files comes before those of the settings. -/
def registry (s : Settings) : Registry :=
  s.extractors.foldl (fun registry entry =>
    match entry.extractor with
    | .ok extractor =>
      match registry.register entry.host extractor with
      | .ok registry => registry
      | .error _ => registry
    | .error _ => registry)
    ⟨[("proto", Extraction.Protovalidate.extractor)]⟩

def shelf (s : Settings) : RuleShelf :=
  s.rules.foldl (fun shelf entry =>
    match entry.rule with
    | .ok (scope, rule) => shelf.add entry.language scope rule
    | .error _ => shelf) {}

def context (s : Settings) : Context := ⟨s.registry, s.shelf, s.config⟩

def environment (s : Settings) : Cel.Environment :=
  s.declarations.foldl (fun env (name, type) =>
    match Cel.CelType.parse type.toList with
    | .ok t => env.bind name t
    | .error _ => env) Cel.baseEnvironment

/-! Reading. -/

def readComposition (strict : Bool) (v : Value) : Option (Option Nat × Option Nat) := do
  let r ← v.record? strict ["blank_lines_between_blocks", "foreign_document_lifetime"]
  let spacing ← r.optional "blank_lines_between_blocks" (Value.nat? 32)
  let lifetime ← r.optional "foreign_document_lifetime" (Value.nat? 32)
  return (spacing, lifetime)

def readUpdate (strict : Bool) (v : Value) : Option (Option Nat × Option Nat) := do
  let r ← v.record? strict ["max_attempts", "backoff_ms"]
  let attempts ← r.optional "max_attempts" (Value.nat? 32)
  let backoff ← r.optional "backoff_ms" (Value.nat? 64)
  return (attempts, backoff)

def readRule (strict : Bool) (v : Value) : Option RuleSettings := do
  let r ← v.record? strict
    ["language", "scope", "pattern", "replacement", "reverse_pattern", "reverse_replacement"]
  let language ← r.required "language" Value.string?
  let scope ← r.withDefault "scope" "line" Value.string?
  let pattern ← r.required "pattern" Value.string?
  let replacement ← r.required "replacement" Value.string?
  let reversePattern ← r.optional "reverse_pattern" Value.string?
  let reverseReplacement ← r.optional "reverse_replacement" Value.string?
  return ⟨language, scope, pattern, replacement, reversePattern, reverseReplacement⟩

def readExtractor (strict : Bool) (v : Value) : Option ExtractorSettings := do
  let r ← v.record? strict
    ["host", "language", "pattern", "group", "keep_in_host", "standalone", "file_extension",
      "exclusive"]
  let host ← r.required "host" Value.string?
  let language ← r.required "language" Value.string?
  let pattern ← r.required "pattern" Value.string?
  let group ← r.withDefault "group" 1 (Value.nat? 64)
  let keepInHost ← r.withDefault "keep_in_host" false Value.bool?
  let standalone ← r.withDefault "standalone" false Value.bool?
  let extension ← r.optional "file_extension" Value.string?
  let exclusive ← r.withDefault "exclusive" false Value.bool?
  return ⟨host, language, pattern, group, keepInHost, standalone, extension, exclusive⟩

def readVariables (strict : Bool) (v : Value) : Option (List (String × String)) := do
  let r ← v.record? strict ["variables"]
  r.withDefault "variables" [] (Value.map? Value.string?)

/-- The settings that plain data stands for, if it has their form. -/
def ofValue? (strict : Bool) (v : Value) : Option Settings := do
  let r ← v.record? strict ["composition", "update", "overrides", "extractors", "cel"]
  let (spacing, lifetime) ← r.withDefault "composition" (none, none) (readComposition strict)
  let (attempts, backoff) ← r.withDefault "update" (none, none) (readUpdate strict)
  let rules ← r.withDefault "overrides" [] (Value.list? (readRule strict))
  let extractors ← r.withDefault "extractors" [] (Value.list? (readExtractor strict))
  let declarations ← r.withDefault "cel" [] (readVariables strict)
  return ⟨spacing, lifetime, attempts, backoff, rules, extractors, declarations⟩

/-- The settings of a file, given its text if it can be read. -/
def ofFile (content : Option String) : Settings :=
  ((content.bind Toml.parse?).bind (ofValue? false)).getD {}

end Settings

/-- What a server works with. -/
structure ServerConfig where
  context : Context
  policy : RetryPolicy
  environment : Cel.Environment

def ServerConfig.ofSettings (s : Settings) : ServerConfig := ⟨s.context, s.policy, s.environment⟩

end Polyglot
