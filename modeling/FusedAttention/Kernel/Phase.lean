/-! The phases of the work on one pair of tiles and the order they come in. -/
namespace FusedAttention

/-- Phases of the work on one pair of tiles, in the order of execution. -/
inductive Phase where
  | loadKeys
  | loadQueries
  | scoreRecompute
  | valueGrad
  | scoreGrad
  | queryGrad
  | keyGrad
  deriving DecidableEq, Repr

namespace Phase

def all : List Phase :=
  [.loadKeys, .loadQueries, .scoreRecompute, .valueGrad, .scoreGrad, .queryGrad, .keyGrad]

def name : Phase → String
  | .loadKeys => "LoadKeys"
  | .loadQueries => "LoadQueries"
  | .scoreRecompute => "ScoreRecompute"
  | .valueGrad => "ValueGrad"
  | .scoreGrad => "ScoreGrad"
  | .queryGrad => "QueryGrad"
  | .keyGrad => "KeyGrad"

/-- Which phase may come next: the order of execution, with keys loaded as often as
wanted and a pass over a query tile followed by another query or key tile. -/
def allows : Phase → Phase → Bool
  | .loadKeys, .loadKeys => true
  | .loadKeys, .loadQueries => true
  | .loadQueries, .scoreRecompute => true
  | .scoreRecompute, .valueGrad => true
  | .valueGrad, .scoreGrad => true
  | .scoreGrad, .queryGrad => true
  | .queryGrad, .keyGrad => true
  | .keyGrad, .loadQueries => true
  | .keyGrad, .loadKeys => true
  | _, _ => false

end Phase

end FusedAttention
