import SqlMetrics.Report.Table

/-!
# Reports

The figures of a batch as a Markdown text. Every line ends with a line feed. Without assessments
there are only the numbers of queries.
-/

set_option autoImplicit false

namespace SqlMetrics

namespace Report

def row (cells : List String) : String :=
  "| " ++ String.intercalate " | " cells ++ " |"

def summaryRow (assessed : List Assessment) (feature : Feature) : String :=
  let summary := FeatureSummary.of (featureValues assessed feature)
  row [feature.name, toString summary.least, toString summary.greatest, fixedText 2 summary.mean,
    toString summary.nonZero]

/-- How often a value occurs among `total` ones. -/
def entryText (total : Nat) (entry : Int × Nat) : String :=
  toString entry.1 ++ ": " ++ toString entry.2 ++ " (" ++ fixedText 1 (share entry.2 total) ++ "%)"

def distributionRow (assessed : List Assessment) (feature : Feature) : String :=
  let entries := distribution (featureValues assessed feature)
  row [feature.name, String.intercalate ", " (entries.map (entryText assessed.length))]

def binRow (bin : Bin Float) : String :=
  let close := if bin.isLast then "]" else ")"
  row ["[" ++ fixedText 2 bin.start ++ ", " ++ fixedText 2 bin.stop ++ close, toString bin.count]

def histogramLines (values : List Float) : List String :=
  ["", "| Range | Queries |", "|-------|---------|"] ++ (Histogram.bins values).map binRow

def lengthRow (measure : String) (values : List Float) : String :=
  row [measure, FloatStyle.prose.render (leastFloat values),
    FloatStyle.prose.render (greatestFloat values), fixedText 2 (meanFloat values)]

def headLines (assessed : List Assessment) (skipped : Nat) : List String :=
  ["# SQL Complexity Report", "", "Analyzed queries: " ++ toString assessed.length,
    "Skipped (unparseable): " ++ toString skipped]

def featureLines (assessed : List Assessment) : List String :=
  ["", "## Feature Summary", "", "| Feature | Min | Max | Mean | Non-zero |",
    "|---------|-----|-----|------|----------|"]
  ++ Feature.all.map (summaryRow assessed)
  ++ ["", "## Feature Distributions", "", "| Feature | Distribution |",
    "|---------|--------------|"]
  ++ Feature.all.map (distributionRow assessed)

def complexityLines (scores : List Float) : List String :=
  ["", "## Complexity", "",
    "Min " ++ fixedText 2 (leastFloat scores) ++ ", max " ++ fixedText 2 (greatestFloat scores)
      ++ ", mean " ++ fixedText 2 (meanFloat scores)]
  ++ histogramLines scores

def lengthLines (lines characters : List Float) : List String :=
  ["", "## Query Length", "", "| Measure | Min | Max | Mean |", "|---------|-----|-----|------|",
    lengthRow "lines" lines, lengthRow "characters" characters, "", "### Lines"]
  ++ histogramLines lines
  ++ ["", "### Characters"]
  ++ histogramLines characters

def allLines (assessed : List Assessment) (skipped : Nat) : List String :=
  headLines assessed skipped
  ++ (if assessed.isEmpty then []
    else featureLines assessed ++ complexityLines (complexities assessed)
      ++ lengthLines (lineCounts assessed) (characterCounts assessed))

def render (assessed : List Assessment) (skipped : Nat) : String :=
  String.join ((allLines assessed skipped).map (· ++ "\n"))

end Report

end SqlMetrics
