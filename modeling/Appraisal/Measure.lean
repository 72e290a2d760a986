import Appraisal.Json.Decode

/-!
# Units of measure

Every calculated number has a unit, and every unit belongs to one dimension. Numbers are combined
only within a dimension: crossing dimensions is an error and never a silent coercion.
-/

namespace Appraisal

inductive Dimension where
  | currency
  | currencyPerTime
  | currencyPerHour
  | time
  | rate
  | count
  | score
  | tokens
  | tokensPerTime
  | currencyPerMillionTokens
  deriving DecidableEq, Repr

def Dimension.name : Dimension → String
  | currency => "currency"
  | currencyPerTime => "currency_per_time"
  | currencyPerHour => "currency_per_hour"
  | time => "time"
  | rate => "rate"
  | count => "count"
  | score => "score"
  | tokens => "tokens"
  | tokensPerTime => "tokens_per_time"
  | currencyPerMillionTokens => "currency_per_million_tokens"

/-- A unit of measure. -/
inductive Measure where
  | usd
  | usdPerMonth
  | usdPerYear
  | usdPerHour
  | hours
  | days
  | months
  | years
  | ratio
  | percent
  | count
  | score
  | tokens
  | tokensPerMonth
  | usdPerMillionTokens
  deriving DecidableEq, Repr

namespace Measure

def all : List Measure :=
  [usd, usdPerMonth, usdPerYear, usdPerHour, hours, days, months, years, ratio, percent, count,
   score, tokens, tokensPerMonth, usdPerMillionTokens]

def name : Measure → String
  | usd => "usd"
  | usdPerMonth => "usd_per_month"
  | usdPerYear => "usd_per_year"
  | usdPerHour => "usd_per_hour"
  | hours => "hours"
  | days => "days"
  | months => "months"
  | years => "years"
  | ratio => "ratio"
  | percent => "percent"
  | count => "count"
  | score => "score"
  | tokens => "tokens"
  | tokensPerMonth => "tokens_per_month"
  | usdPerMillionTokens => "usd_per_million_tokens"

def symbol : Measure → String
  | usd => "$"
  | usdPerMonth => "$/mo"
  | usdPerYear => "$/yr"
  | usdPerHour => "$/h"
  | hours => "h"
  | days => "d"
  | months => "mo"
  | years => "yr"
  | ratio => ""
  | percent => "%"
  | count => "#"
  | score => "pts"
  | tokens => "tok"
  | tokensPerMonth => "tok/mo"
  | usdPerMillionTokens => "$/1M tok"

/-- Labor rates have a dimension of their own: they never convert into money over time. -/
def dimension : Measure → Dimension
  | usd => .currency
  | usdPerMonth | usdPerYear => .currencyPerTime
  | usdPerHour => .currencyPerHour
  | hours | days | months | years => .time
  | ratio | percent => .rate
  | count => .count
  | score => .score
  | tokens => .tokens
  | tokensPerMonth => .tokensPerTime
  | usdPerMillionTokens => .currencyPerMillionTokens

/-- The factor into the base unit of the dimension: years for money over time, hours for time, plain
ratios for rates. -/
def scale : Measure → Float
  | usdPerMonth => 12
  | days => 24
  | months => 730
  | years => 8760
  | percent => 0.01
  | _ => 1

def ofName? (name : String) : Option Measure :=
  all.find? (·.name = name)

theorem ofName?_name (m : Measure) : ofName? m.name = some m := by
  cases m <;> decide

/-- The number in another unit of the same dimension. -/
def rescale (x : Float) (source target : Measure) : Float :=
  if source = target then x else x * source.scale / target.scale

def toJson (m : Measure) : Json :=
  .string m.name

def ofJson? (j : Json) : Option Measure := do
  ofName? (← j.caseName?)

end Measure

end Appraisal
