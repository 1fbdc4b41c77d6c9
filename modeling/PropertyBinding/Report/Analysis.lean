import PropertyBinding.Report.Description
import PropertyBinding.Failure

/-!
# Analyses of failures

An analyzer recognises some failures and explains them: what went wrong, and what
to do about it.  Several analyzers are asked in turn, and the first analysis
stands.
-/

namespace PropertyBinding

/-- The explanation of a failure. -/
structure Analysis where
  description : String
  action : String
  cause : Failure

def Analysis.report (a : Analysis) : String :=
  let rule := "***************************\n"
  "\n" ++ rule ++ "APPLICATION FAILED TO START\n" ++ rule ++
    "\nDescription:\n\n" ++ a.description ++ "\n\nAction:\n\n" ++ a.action

/-- An analyzer, under the name by which the log refers to it. -/
structure Analyzer where
  label : String
  analyze : Failure → Option Analysis

namespace Analyzer

def bindFailure : Analyzer where
  label := "BindFailureAnalyzer"
  analyze failure :=
    failure.bindError?.map fun e =>
      ⟨e.description, "Update your application's configuration", .bind e⟩

/-- The analyzers in use unless others are given. -/
def standard : List Analyzer := [bindFailure]

/-- The first analysis of a failure, and which analyzer has made it. -/
def firstAnalysis (analyzers : List Analyzer) (failure : Failure) :
    Option (Analyzer × Analysis) :=
  analyzers.findSome? fun analyzer => (analyzer.analyze failure).map fun a => (analyzer, a)

/-- Report a failure, if an analyzer recognises it: the log entries made. -/
def report? (analyzers : List Analyzer) (failure : Failure) : Option (List LogEntry) :=
  (firstAnalysis analyzers failure).map fun (analyzer, analysis) =>
    [⟨.debug, "failure analyzed", [("analyzer", .text analyzer.label)]⟩,
      ⟨.error, analysis.report, []⟩]

end Analyzer
end PropertyBinding
