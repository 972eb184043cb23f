import Mathlib

/-! Byte strings: the C++ `std::string`, `std::vector<std::byte>` and spans of bytes. -/

namespace Mino

abbrev Bytes := List UInt8

end Mino
