import SqlCompose.Function.Basic
import SqlCompose.Text.Case

/-! # Well-known functions — the calls of functions that most databases have

    Every argument is a term; a column that is meant as one has to be given as such, because a
    string is a constant. -/

namespace SqlCompose.Function

/-! ## Aggregates -/

/-- How many values are not null. -/
def count (t : Term) : Function := aggregate "COUNT" [t]

/-- How many rows there are. -/
def countStar : Function := aggregate "COUNT" [.star]

/-- How many different values are not null. -/
def countDistinct (t : Term) : Function := (count t).distinct

/-- The sum of the values. -/
def sum (t : Term) : Function := aggregate "SUM" [t]

/-- The mean of the values. -/
def avg (t : Term) : Function := aggregate "AVG" [t]

/-- The least value. -/
def min (t : Term) : Function := aggregate "MIN" [t]

/-- The greatest value. -/
def max (t : Term) : Function := aggregate "MAX" [t]

/-- The standard deviation, by its short name. -/
def std (t : Term) : Function := aggregate "STD" [t]

/-- The standard deviation. -/
def stdDev (t : Term) : Function := aggregate "STDDEV" [t]

/-- The absolute value, over which a window may be taken. -/
def abs (t : Term) : Function := aggregate "ABS" [t]

/-- The first value. -/
def first (t : Term) : Function := aggregate "FIRST" [t]

/-- The last value. -/
def last (t : Term) : Function := aggregate "LAST" [t]

/-- A share is positional from `0.0001` to below `10 ^ 16`; exponents have no plus sign. -/
def shareLayout : Decimal.Layout := ⟨-4, 16, false, .up⟩

/-- The value below which about the given share of the values lies. -/
def approximatePercentile (t : Term) (share : Binary64) : Function :=
  (aggregate "APPROXIMATE_PERCENTILE" [t]).suffixed
    (.words ("USING PARAMETERS percentile=" ++ shareLayout.write share))

/-! ## Numbers and types -/

/-- The square root. -/
def sqrt (t : Term) : Function := plain "SQRT" [t]

/-- The greatest whole number that is not greater. -/
def floor (t : Term) : Function := plain "FLOOR" [t]

/-- A value as one of another type, the name of which is written in capitals. -/
def cast (t : Term) (type : String) : Function :=
  (plain "CAST" [t]).suffixed (.words ("AS " ++ Text.upper type))

/-- A string in another encoding. -/
def convert (t : Term) (encoding : String) : Function :=
  (plain "CONVERT" [t]).suffixed (.words ("USING " ++ encoding))

/-- A value as a signed number. -/
def signed (t : Term) : Function := cast t "SIGNED"

/-- A value as an unsigned number. -/
def unsigned (t : Term) : Function := cast t "UNSIGNED"

/-- A value as text in a format. -/
def toChar (t format : Term) : Function := plain "TO_CHAR" [t, format]

/-! ## Dates and times -/

/-- The date of a point in time. -/
def date (t : Term) : Function := plain "DATE" [t]

/-- How many units of an interval lie between two dates. -/
def dateDiff (interval start stop : Term) : Function := plain "DATEDIFF" [interval, start, stop]

/-- The time between two points in time. -/
def timeDiff (start stop : Term) : Function := plain "TIMEDIFF" [start, stop]

/-- A date moved by an interval. -/
def dateAdd (part interval t : Term) : Function := plain "DATE_ADD" [part, interval, t]

/-- The date that a text stands for. -/
def toDate (t format : Term) : Function := plain "TO_DATE" [t, format]

/-- A date as a point in time. -/
def timestamp (t : Term) : Function := plain "TIMESTAMP" [t]

/-- A point in time moved by an interval. -/
def timestampAdd (part interval t : Term) : Function := plain "TIMESTAMPADD" [part, interval, t]

/-- The present, as a call. -/
def now : Function := plain "NOW" []

/-- The present in universal time. -/
def utcTimestamp : Function := plain "UTC_TIMESTAMP" []

/-- The present, as a bare name. -/
def currentTimestamp : Function := bare "CURRENT_TIMESTAMP"

/-- The date of today. -/
def currentDate : Function := plain "CURRENT_DATE" []

/-- The time of day. -/
def currentTime : Function := plain "CURRENT_TIME" []

/-- A part of a date. -/
def extract (part : DatePart) (t : Term) : Function :=
  (plain "EXTRACT" [.value (.part part)]).suffixed (.source t)

/-! ## Strings -/

/-- The code of the first character. -/
def ascii (t : Term) : Function := plain "ASCII" [t]

/-- A number in binary digits. -/
def bin (t : Term) : Function := plain "BIN" [t]

/-- Strings one after the other. -/
def concat (terms : List Term) : Function := plain "CONCAT" terms

/-- A string with a part replaced. -/
def insert (t start stop part : Term) : Function := plain "INSERT" [t, start, stop, part]

/-- The length of a string. -/
def length (t : Term) : Function := plain "LENGTH" [t]

/-- A string in capital letters. -/
def upper (t : Term) : Function := plain "UPPER" [t]

/-- A string in small letters. -/
def lower (t : Term) : Function := plain "LOWER" [t]

/-- A part of a string. -/
def substring (t start stop : Term) : Function := plain "SUBSTRING" [t, start, stop]

/-- A string backwards. -/
def reverse (t : Term) : Function := plain "REVERSE" [t]

/-- A string without the blanks around it. -/
def trim (t : Term) : Function := plain "TRIM" [t]

/-- One of the parts between delimiters. -/
def splitPart (t delimiter index : Term) : Function := plain "SPLIT_PART" [t, delimiter, index]

/-- Modifiers of a pattern as an argument, if there are any. -/
def modifierArgument (modifiers : Option String) : List Term :=
  (modifiers.map fun m => Term.value (.str m)).toList

/-- The parts of a string that match a pattern. -/
def regexpMatches (t pattern : Term) (modifiers : Option String) : Function :=
  plain "REGEXP_MATCHES" ([t, pattern] ++ modifierArgument modifiers)

/-- Whether a string matches a pattern. -/
def regexpLike (t pattern : Term) (modifiers : Option String) : Function :=
  plain "REGEXP_LIKE" ([t, pattern] ++ modifierArgument modifiers)

/-! ## Nulls -/

/-- Null if two values are equal, otherwise the first of them. -/
def nullIf (t other : Term) : Function := plain "NULLIF" [t, other]

/-- Whether a value is null, as a call. -/
def isNull (t : Term) : Function := plain "ISNULL" [t]

/-- The first value that is not null. -/
def coalesce (t : Term) (others : List Term) : Function := plain "COALESCE" (t :: others)

/-- A value, or another one if it is null. -/
def ifNull (t other : Term) : Function := plain "IFNULL" [t, other]

/-- A value, or another one if it is null, as Oracle has it. -/
def nvl (t other : Term) : Function := plain "NVL" [t, other]

/-! ## By name -/

/-- The call of a well-known function that takes terms only, by its name in small letters. The
    number of terms has to fit. -/
def named? : String → List Term → Option Function
  | "count_star", [] => some .countStar
  | "now", [] => some .now
  | "utc_timestamp", [] => some .utcTimestamp
  | "current_timestamp", [] => some .currentTimestamp
  | "current_date", [] => some .currentDate
  | "current_time", [] => some .currentTime
  | "count", [t] => some (.count t)
  | "count_distinct", [t] => some (.countDistinct t)
  | "sum", [t] => some (.sum t)
  | "avg", [t] => some (.avg t)
  | "min", [t] => some (.min t)
  | "max", [t] => some (.max t)
  | "std", [t] => some (.std t)
  | "std_dev", [t] => some (.stdDev t)
  | "abs", [t] => some (.abs t)
  | "first", [t] => some (.first t)
  | "last", [t] => some (.last t)
  | "sqrt", [t] => some (.sqrt t)
  | "floor", [t] => some (.floor t)
  | "signed", [t] => some (.signed t)
  | "unsigned", [t] => some (.unsigned t)
  | "date", [t] => some (.date t)
  | "timestamp", [t] => some (.timestamp t)
  | "ascii", [t] => some (.ascii t)
  | "bin", [t] => some (.bin t)
  | "length", [t] => some (.length t)
  | "upper", [t] => some (.upper t)
  | "lower", [t] => some (.lower t)
  | "reverse", [t] => some (.reverse t)
  | "trim", [t] => some (.trim t)
  | "is_null", [t] => some (.isNull t)
  | "to_char", [t, u] => some (.toChar t u)
  | "time_diff", [t, u] => some (.timeDiff t u)
  | "to_date", [t, u] => some (.toDate t u)
  | "null_if", [t, u] => some (.nullIf t u)
  | "if_null", [t, u] => some (.ifNull t u)
  | "nvl", [t, u] => some (.nvl t u)
  | "date_diff", [t, u, v] => some (.dateDiff t u v)
  | "date_add", [t, u, v] => some (.dateAdd t u v)
  | "timestamp_add", [t, u, v] => some (.timestampAdd t u v)
  | "substring", [t, u, v] => some (.substring t u v)
  | "split_part", [t, u, v] => some (.splitPart t u v)
  | "insert", [t, u, v, w] => some (.insert t u v w)
  | _, _ => none

end SqlCompose.Function
