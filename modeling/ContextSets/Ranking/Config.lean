import ContextSets.Number.Single

/-!
# Settings of the ranker

The weights by which the two scores of a file are combined, the thresholds for their interpretation,
and limits.
-/

namespace ContextSets

/-- Settings of the ranker. A limit of zero results means no limit. -/
structure RankerConfig where
  structureWeight : Float32 := 0.4
  similarityWeight : Float32 := 0.6
  structureSynergy : Float32 := 0.1
  similaritySynergy : Float32 := 0.3
  unrelatedBelow : Float32 := 0.05
  coreFrom : Float32 := 0.4
  coreCount : Nat := 3
  maxResults : Nat := 50
  concurrency : Nat := 4
  analyzedBytes : Nat := 1024 * 1024

/-- What is wrong with settings of the ranker. -/
inductive RankerFault where
  | unusableWeight
  | noWeight
  | threshold (option : String) (value : Float32)

namespace RankerFault

/-- The wording of a fault. -/
def message : RankerFault → String
  | unusableWeight => "weights must be finite and non-negative"
  | noWeight => "at least one weight must be positive"
  | threshold option value =>
    option ++ " must be within 0..=1, got " ++ Single.plainText value

end RankerFault

namespace RankerConfig

/-- The thresholds with the names of their options. -/
def thresholds (config : RankerConfig) : List (String × Float32) :=
  [("ast_synergy_threshold", config.structureSynergy),
    ("llm_synergy_threshold", config.similaritySynergy),
    ("unrelated_threshold", config.unrelatedBelow),
    ("core_logic_threshold", config.coreFrom)]

/-- Whether a weight can be used. -/
def isUsable (weight : Float32) : Bool :=
  weight.isFinite && !(weight < 0)

/-- Whether a threshold is a possible score. -/
def isScore (value : Float32) : Bool :=
  0 ≤ value && value ≤ 1

/-- The first fault of the settings. -/
def fault? (config : RankerConfig) : Option RankerFault :=
  if !isUsable config.structureWeight || !isUsable config.similarityWeight then
    some .unusableWeight
  else if config.structureWeight + config.similarityWeight ≤ 0 then some .noWeight
  else (config.thresholds.find? (!isScore ·.2)).map fun entry => .threshold entry.1 entry.2

/-- The weights scaled to the sum one, or halves if there is nothing to scale. -/
def weights (config : RankerConfig) : Float32 × Float32 :=
  let total := config.structureWeight + config.similarityWeight
  if total ≤ 0 then (0.5, 0.5)
  else (config.structureWeight / total, config.similarityWeight / total)

end RankerConfig

/-- Why a search gives no results. -/
inductive SearchError where
  | superseded
  | settings (fault : RankerFault)

/-- The wording of a search error. -/
def SearchError.message : SearchError → String
  | superseded => "search superseded by a newer query"
  | settings fault => "configuration error: " ++ fault.message

end ContextSets
