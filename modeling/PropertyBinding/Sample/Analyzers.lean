import PropertyBinding.Report.Analysis

/-!
# Analyzers of the sample application

Each recognises one family of failures, by the failure itself and not by the
reasons behind it, and has the same to say about all of them.
-/

namespace PropertyBinding
namespace Sample

/-- The families of failures. -/
inductive Family where
  | missingConfig
  | source
  | other
deriving DecidableEq, Repr

namespace Family

def of : Failure → Family
  | .missingConfig => missingConfig
  | .source _ => source
  | .bind _ | .creation _ _ => other

def word : Family → String
  | missingConfig => "missing_config"
  | source => "config"
  | other => "anything"

def analyzer (family : Family) : Analyzer where
  label := "OtherAnalyzer(\"" ++ family.word ++ "\")"
  analyze failure :=
    if of failure = family then
      some ⟨"Found " ++ family.word ++ ".", "Do something", failure⟩
    else none

end Family

/-- The analyzer with a name: one of those above, or the library's own. -/
def analyzer? (name : String) : Option Analyzer :=
  if name = "bind" then some Analyzer.bindFailure
  else ([Family.missingConfig, .source, .other].find? (·.word == name)).map Family.analyzer

end Sample
end PropertyBinding
