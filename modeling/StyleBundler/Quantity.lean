import StyleBundler.Binary

/-!
Sizes and durations as text. They are rounded to 53 bits and then written with a fixed
number of places, so that the text is that of the rounded value and not of the exact one.
-/

namespace StyleBundler.Quantity

def kilobyte : Nat := 1024

def megabyte : Nat := 1024 * kilobyte

def gigabyte : Nat := 1024 * megabyte

/-- A number of bytes in the largest unit that it fills. -/
def sizeText (bytes : Nat) : String :=
  let inUnit (unit : Nat) : String := ((Binary.round bytes 1).div unit).text 2
  if gigabyte ≤ bytes then inUnit gigabyte ++ " GB"
  else if megabyte ≤ bytes then inUnit megabyte ++ " MB"
  else if kilobyte ≤ bytes then inUnit kilobyte ++ " KB"
  else toString bytes ++ " B"

/-- A duration in minutes, seconds or milliseconds. -/
def durationText (seconds nanoseconds : Nat) : String :=
  let total := (Binary.round seconds 1).add (Binary.round nanoseconds 1000000000)
  if total.atLeast 60 then
    let minutes := (total.div 60).floor
    let rest := total.add ((Binary.round minutes 1).mul 60).neg
    toString minutes ++ "m " ++ rest.text 2 ++ "s"
  else if total.atLeast 1 then total.text 2 ++ "s"
  else (total.mul 1000).text 0 ++ "ms"

end StyleBundler.Quantity
