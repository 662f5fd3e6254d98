import CrateAtlas.Path

/-!
Problems that an analysis recovers from.
-/

namespace CrateAtlas

inductive ExternalMetric where
  | coverage
  | history
  deriving DecidableEq, Repr, Inhabited

namespace ExternalMetric

def name : ExternalMetric → String
  | coverage => "coverage"
  | history => "history"

def ofName? : String → Option ExternalMetric
  | "coverage" => some coverage
  | "history" => some history
  | _ => none

end ExternalMetric

inductive Warning where
  | parseError (path : Path) (message : String)
  | resolutionFailure (path : Path) (specifier : String)
  | metricUnavailable (path : Option Path) (metric : ExternalMetric) (message : String)
  deriving DecidableEq, Repr, Inhabited

namespace Warning

def describe : Warning → String
  | parseError path message => "parse error in " ++ path.display ++ ": " ++ message
  | resolutionFailure path specifier =>
    "unresolved import `" ++ specifier ++ "` in " ++ path.display
  | metricUnavailable (some path) metric message =>
    metric.name ++ " unavailable for " ++ path.display ++ ": " ++ message
  | metricUnavailable none metric message => metric.name ++ " unavailable: " ++ message

end Warning

end CrateAtlas
