import ContextSets.Ranking.Config
import ContextSets.Toml.Decoder
import ContextSets.Toml.Reader

/-!
# Configuration

The settings of the command line tool, read from a TOML text. Every section and every key is optional.
-/

namespace ContextSets

/-- Where a project is and which of its files count. Without a root it is the current directory. -/
structure ProjectSettings where
  root : Option String := none
  workingCopy : String := "context-sets.json"
  excludedDirectories : List String :=
    [".git", ".hg", ".svn", ".contextual", "node_modules", "target", "vendor", ".venv", "venv",
      "build", "dist", "__pycache__", ".idea", ".vscode"]
  maxFileBytes : Nat := 512 * 1024
deriving DecidableEq, Repr

/-- Which provider embeds. -/
inductive ProviderKind where
  | hashing
  | remote
deriving DecidableEq, Repr

namespace ProviderKind

/-- The name of a kind of provider. -/
def name : ProviderKind → String
  | hashing => "hashing"
  | remote => "openai"

/-- The kind of provider with a name. -/
def named? (text : String) : Option ProviderKind :=
  [hashing, remote].find? (·.name == text)

end ProviderKind

/-- How files are embedded. Model and address are those of the remote provider, the number of
components is that of the local one. -/
structure EmbeddingSettings where
  provider : ProviderKind := .hashing
  model : Option String := none
  baseUrl : Option String := none
  dimension : Nat := 256
  cacheDirectory : Option String := none
  concurrency : Nat := 4
deriving DecidableEq, Repr

/-- All settings. -/
structure Config where
  project : ProjectSettings := {}
  embedding : EmbeddingSettings := {}
  ranker : RankerConfig := {}
  logLevel : String := "warn"

/-- What is wrong with a configuration. -/
inductive ConfigFault where
  | malformed
  | ranker (fault : RankerFault)

namespace ConfigFault

/-- The wording of a fault. -/
def message : ConfigFault → String
  | malformed => "TOML parse error"
  | ranker fault => (SearchError.settings fault).message

end ConfigFault

open Toml

/-- Reads the section of the project. -/
def ProjectSettings.ofToml? : Toml.Decoder ProjectSettings := fun value => do
  let usual : ProjectSettings := {}
  match ← section? ["root", "working_copy", "exclude_dirs", "max_file_bytes"] value with
  | [root, workingCopy, excluded, maxFileBytes] =>
    return {
      root := ← orUsual someText? usual.root root
      workingCopy := ← orUsual text? usual.workingCopy workingCopy
      excludedDirectories := ← orUsual texts? usual.excludedDirectories excluded
      maxFileBytes := ← orUsual nat? usual.maxFileBytes maxFileBytes }
  | _ => none

/-- Reads the section of embedding. -/
def EmbeddingSettings.ofToml? : Toml.Decoder EmbeddingSettings := fun value => do
  let usual : EmbeddingSettings := {}
  let known := ["provider", "model", "base_url", "dimension", "cache_dir", "concurrency"]
  match ← section? known value with
  | [provider, model, baseUrl, dimension, cacheDirectory, concurrency] =>
    return {
      provider := ← orUsual (word? ProviderKind.named?) usual.provider provider
      model := ← orUsual someText? usual.model model
      baseUrl := ← orUsual someText? usual.baseUrl baseUrl
      dimension := ← orUsual nat? usual.dimension dimension
      cacheDirectory := ← orUsual someText? usual.cacheDirectory cacheDirectory
      concurrency := ← orUsual nat? usual.concurrency concurrency }
  | _ => none

/-- Reads the section of the analyzer, which holds the number of analyzed bytes. -/
def analyzedBytes? : Toml.Decoder Nat := fun value => do
  match ← section? ["max_bytes"] value with
  | [maxBytes] => orUsual nat? ({} : RankerConfig).analyzedBytes maxBytes
  | _ => none

/-- Reads the section of the ranker. -/
def RankerConfig.ofToml? : Toml.Decoder RankerConfig := fun value => do
  let usual : RankerConfig := {}
  let known :=
    ["ast_weight", "llm_weight", "ast_synergy_threshold", "llm_synergy_threshold",
      "unrelated_threshold", "core_logic_threshold", "core_logic_top_n", "max_results",
      "concurrency", "analyzer"]
  match ← section? known value with
  | [structureWeight, similarityWeight, structureSynergy, similaritySynergy, unrelatedBelow,
      coreFrom, coreCount, maxResults, concurrency, analyzer] =>
    return {
      structureWeight := ← orUsual single? usual.structureWeight structureWeight
      similarityWeight := ← orUsual single? usual.similarityWeight similarityWeight
      structureSynergy := ← orUsual single? usual.structureSynergy structureSynergy
      similaritySynergy := ← orUsual single? usual.similaritySynergy similaritySynergy
      unrelatedBelow := ← orUsual single? usual.unrelatedBelow unrelatedBelow
      coreFrom := ← orUsual single? usual.coreFrom coreFrom
      coreCount := ← orUsual nat? usual.coreCount coreCount
      maxResults := ← orUsual nat? usual.maxResults maxResults
      concurrency := ← orUsual nat? usual.concurrency concurrency
      analyzedBytes := ← orUsual analyzedBytes? usual.analyzedBytes analyzer }
  | _ => none

namespace Config

/-- Reads all settings from the entries of a document. -/
def ofEntries? (entries : Entries) : Option Config := do
  let usual : Config := {}
  return {
    project := ← orUsual ProjectSettings.ofToml? usual.project (find? "project" entries)
    embedding := ← orUsual EmbeddingSettings.ofToml? usual.embedding (find? "embedding" entries)
    ranker := ← orUsual RankerConfig.ofToml? usual.ranker (find? "ranker" entries)
    logLevel := ← orUsual text? usual.logLevel (find? "log_level" entries) }

/-- Reads a configuration and checks the settings of the ranker. -/
def ofText (text : String) : Except ConfigFault Config :=
  match (Toml.ofText? text).bind ofEntries? with
  | none => .error .malformed
  | some config =>
    match config.ranker.fault? with
    | some fault => .error (.ranker fault)
    | none => .ok config

end Config

end ContextSets
