/-!
# Words of a machine

The integers of a shell are kept in machine words: numbers that differ by a multiple of the word
size are the same word.
-/

namespace LineAssist.Shell

/-- The number of words. -/
def wordSize : Nat := 0x10000000000000000

end LineAssist.Shell
