import BlockSketch.Block.Basic

/-!
Blocks for time: clocks, delays, and statements that run at intervals.
-/

namespace BlockSketch.Block.Time

open Recipe

def delay (n : Node) : Recipe String := do
  let time ← socket n "DELAY_TIME" .loosest "0"
  return s!"delay({time});\n"

def delaySeconds (n : Node) : Recipe String := do
  let time ← socket n "DELAY_TIME" .multiplicative "0"
  return s!"delay({time} * 1000);\n"

def clockOf (unit : String) : String := if unit = "us" then "micros()" else "millis()"

def ticksOf (unit interval : String) : String :=
  if unit = "s" then interval ++ " * 1000" else interval

/-- Statements that run whenever an interval has passed since they ran last. The time of the last
run is kept in a variable, one for each text of an interval. -/
def atIntervals (n : Node) : Recipe String := do
  let interval ← requiredSocket n "DELAY_TIME" .multiplicative "0"
  let code ← body n "branche"
  let stamp ← variableName ("temps" ++ interval)
  offer .declarations ("temporisation_" ++ stamp) s!"long {stamp} = 0;"
  let unit := n.fieldD "unite" "ms"
  let clock := clockOf unit
  return withBody s!"if ({clock} - {stamp} >= {ticksOf unit interval})"
    (s!"  {stamp} = {clock};\n" ++ code) ++ "\n"

def blocks : List Block :=
  [typed "millis" .unsignedLargeNumber fun _ _ => return .atomic "millis()",
    typed "micros" .unsignedLargeNumber fun _ _ => return .atomic "micros()",
    typed "millis_sec" .unsignedLargeNumber fun _ _ => return ⟨"millis()/1000", .multiplicative⟩,
    statement "base_delay" fun _ n => delay n,
    statement "base_delay_sec" fun _ n => delaySeconds n,
    statement "tempo_no_delay" fun _ n => atIntervals n]

end BlockSketch.Block.Time
