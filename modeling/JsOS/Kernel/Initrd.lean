import JsOS.Kernel.Crc32
import JsOS.Library.BigEndian
import JsOS.Library.ByteMemory
import JsOS.Library.Traced

/-! # The initial file system

`PackageReader` and `Initrd`: the boot module is searched for a package, the package is
inflated into a buffer of its own, and the entries of the buffer become files. Memory is read
through pointers into the module and into the buffer. A read past the end of either gives
what the memory happens to hold there; the trace records where each read goes, which of the
two its pointer belongs to, and the names of the files that are made.

The decompressor and `malloc` are parameters.
-/

namespace JsOS.Kernel

namespace Initrd

/-! ## Reading memory -/

/-- A `const char*`. -/
inductive CharPtr where
  | nullptr
  | literal (text : String)
  | at (address : ℕ)
  deriving DecidableEq, Repr

/-- The stretch of memory that a pointer belongs to. -/
inductive Source where
  | module
  | inflated
  deriving DecidableEq, Repr

/-- Bytes are read, or handed over to be read, or a file is made of an entry. -/
inductive Action where
  | access (source : Source) (address length : ℕ)
  | produce (name : CharPtr)
  deriving DecidableEq, Repr

abbrev Reading := Traced Action

variable (source : Source) (memory : ℕ → UInt8)

def readByte (pos : ℕ) : Reading UInt8 := .act (.access source pos 1) (memory pos)

/-- `Utils::ReadUint16BE`. -/
def readUint16BE (pos : ℕ) : Reading ℕ :=
  .act (.access source pos 2) (BigEndian.value (ByteMemory.window memory pos 2))

/-- `Utils::ReadUint32BE`. -/
def readUint32BE (pos : ℕ) : Reading ℕ :=
  .act (.access source pos 4) (BigEndian.value (ByteMemory.window memory pos 4))

/-! ## Reading a package -/

/-- `PackageFileType::DEFAULT`. -/
def DEFAULT : ℕ := 0xAA

/-- `PackageFileType::LINK`. -/
def LINK : ℕ := 0xBB

/-- A `PackageFile`. -/
structure PackageFile where
  is_link_ : Bool := false
  name_ : CharPtr := .nullptr
  buf_ : Option ℕ := none
  len_ : ℕ := 0
  content_ : ℕ := 0

def PackageFile.empty (file : PackageFile) : Bool := file.buf_.isNone && !file.is_link_

/-- A `PackageReader`. -/
structure PackageReader where
  next_ : Option ℕ := none
  files_left_ : ℕ := 0
  runtime_index_name_ : CharPtr := .literal ""
  app_index_name_ : CharPtr := .literal ""

namespace PackageReader

/-- `ReadUint32`, with `next_` after it. -/
def readUint32 (next : ℕ) : Reading (ℕ × ℕ) := do
  let value ← readUint32BE .inflated memory next
  return (value, next + 4)

/-- `ReadString`, with `next_` after it. -/
def readString (next : ℕ) : Reading (CharPtr × ℕ) := do
  let len ← readUint16BE .inflated memory next
  let str := next + 2
  let last ← readByte .inflated memory (str + len)
  if last ≠ 0 then return (.nullptr, next)
  else return (.at str, next + (len + 3))

/-- `Finish`. -/
def finish (reader : PackageReader) : PackageFile × PackageReader :=
  ({}, { reader with next_ := none, files_left_ := 0 })

/-- `Next` behind the type of an entry. The pointer to the contents of a file is null at first, and
only the type makes it another one. -/
def nextOfType (reader : PackageReader) (type next : ℕ) : Reading (PackageFile × PackageReader) := do
  let len ← readUint32 memory next
  let name ← readString memory len.2
  let content ← readUint32 memory name.2
  Traced.act (.produce name.1) ()
  return if type = LINK then
      (⟨true, name.1, none, len.1, content.1⟩,
        { reader with next_ := some content.2, files_left_ := reader.files_left_ - 1 })
    else
      (⟨false, name.1, some content.2, len.1, content.1⟩,
        { reader with
          next_ := some (content.2 + len.1)
          files_left_ := reader.files_left_ - 1 })

/-- `Next` with entries to come. -/
def nextAt (reader : PackageReader) (next : ℕ) : Reading (PackageFile × PackageReader) := do
  let type ← readUint32 memory next
  if type.1 ≠ DEFAULT ∧ type.1 ≠ LINK then return reader.finish
  else reader.nextOfType memory type.1 type.2

/-- `Next`. -/
def next (reader : PackageReader) : Reading (PackageFile × PackageReader) :=
  match reader.next_ with
  | none => return reader.finish
  | some next => if reader.files_left_ = 0 then return reader.finish else reader.nextAt memory next

end PackageReader

/-! ## Finding the package -/

/-- `PACKAGE_MAGIC`. -/
def PACKAGE_MAGIC : ℕ := 0xCAFECAFE

/-- `Version::getVersionNumber`. -/
def getVersionNumber : ℕ := 2

/-- The letters behind the magic word. -/
def PCKG : List UInt8 := [0x50, 0x43, 0x4b, 0x47]

/-- What the kernel is linked with: `malloc`, and `tinfl_decompress_mem_to_mem`, which is given
the size of the buffer to write and the bytes to inflate, and fails or gives the bytes that
it writes. -/
structure Platform where
  malloc : ℕ → Option ℕ
  tinfl : ℕ → List UInt8 → Option (List UInt8)

/-- Whether bytes are as expected, one after the other up to the first that is not. -/
def matchBytes : List UInt8 → ℕ → Reading Bool
  | [], _ => return true
  | expected :: others, pos => do
      let byte ← readByte .module memory pos
      if byte ≠ expected then return false else matchBytes others (pos + 1)

/-- The memory after bytes have been written. -/
def written (address : ℕ) (bytes : List UInt8) : ℕ → UInt8 := fun place =>
  if address ≤ place ∧ place < address + bytes.length then bytes.getD (place - address) 0
  else memory place

/-- The buffer into which a package has been inflated, with the memory after that. -/
structure Inflated where
  ptr : ℕ
  inflated_size : ℕ
  memory : ℕ → UInt8

/-- The constructor from the letters on, at `pos`, up to the inflated package: `files_left_`, and
the buffer if there is one. -/
def openPackage (platform : Platform) (len pos : ℕ) : Reading (ℕ × Option Inflated) := do
  let old_count ← readUint32BE .module memory (pos + 4)
  if old_count ≠ 0 then return (0, none)
  else
    let kernelVer ← readUint32BE .module memory (pos + 8)
    if kernelVer ≠ getVersionNumber then return (0, none)
    else
      let files_left ← readUint32BE .module memory (pos + 12)
      let inflated_size ← readUint32BE .module memory (pos + 16)
      match platform.malloc inflated_size with
      | none => return (files_left, none)
      | some ptr =>
          let compr_ptr := pos + 20
          let compr_size := (len + (2 ^ 64 - 20)) % 2 ^ 64
          let dec_result ← Traced.act (.access .module compr_ptr compr_size)
            (platform.tinfl inflated_size (ByteMemory.window memory compr_ptr compr_size))
          return (files_left, dec_result.map fun inflated =>
            ⟨ptr, inflated_size, written memory ptr inflated⟩)

/-- The loop of the constructor that looks for a package at every word. -/
def search (platform : Platform) (len finish : ℕ) : ℕ → ℕ → Reading (ℕ × Option Inflated)
  | 0, _ => return (0, none)
  | fuel + 1, pos =>
      if pos < finish then do
        let value ← readUint32BE .module memory pos
        if value ≠ PACKAGE_MAGIC then search platform len finish fuel (pos + 4)
        else
          let letters ← matchBytes memory PCKG (pos + 4)
          if !letters then search platform len finish fuel (pos + 4)
          else openPackage memory platform len (pos + 4)
      else return (0, none)

/-- `Utils::AlignPtr` to a word. -/
def alignPtr (pos : ℕ) : ℕ := (pos + 3) / 4 * 4

/-- The package that the constructor finds. Every round of the loop moves on, so the length
bounds the rounds. -/
def findPackage (platform : Platform) (start len : ℕ) : Reading (ℕ × Option Inflated) :=
  search memory platform len (start + len) len (alignPtr start)

/-- The constructor once the package is inflated: the names of the index files. -/
def PackageReader.opened (files_left : ℕ) (inflated : Inflated) : Reading PackageReader := do
  let runtime ← PackageReader.readString inflated.memory inflated.ptr
  let app ← PackageReader.readString inflated.memory runtime.2
  return ⟨some app.2, files_left, runtime.1, app.1⟩

/-! ## Files -/

/-- An `InitrdFile`. -/
structure InitrdFile where
  _name : CharPtr
  _size : ℕ
  _data : CharPtr
  _is_empty : Bool
  deriving DecidableEq, Repr

/-- `InitrdFile()`. -/
def InitrdFile.invalid : InitrdFile := ⟨.literal "<invalid_file>", 0, .literal "", true⟩

/-- `InitrdFile(name, size, data)`; without a result where the assertion on the name fails. -/
def InitrdFile.new (name : CharPtr) (size : ℕ) (data : CharPtr) : Option InitrdFile :=
  if name = .nullptr then none else some ⟨name, size, data, false⟩

/-- A round of the loop of `Init`, with the files so far and what comes after the round. Without a
result an assertion has failed. -/
def initRound (again : PackageReader → List InitrdFile → Reading (Option (List InitrdFile)))
    (files_ : List InitrdFile) (file : PackageFile) (reader : PackageReader) :
    Reading (Option (List InitrdFile)) :=
  if file.empty then return some files_
  else if file.is_link_ then
    match files_[file.content_]? with
    | none => return some files_
    | some f =>
        match InitrdFile.new file.name_ f._size f._data with
        | none => return none
        | some added => again reader (files_ ++ [added])
  else do
    let buf := file.buf_.getD 0
    let crc32 ← Traced.act (.access .inflated buf file.len_)
      (CRC32.compute (ByteMemory.window memory buf file.len_))
    if file.content_ ≠ crc32.toNat then return some files_
    else
      match InitrdFile.new file.name_ file.len_ (.at buf) with
      | none => return none
      | some added => again reader (files_ ++ [added])

/-- The loop of `Init`, from a call of `Next` to the following one. -/
def initLoop : ℕ → PackageReader → List InitrdFile → Reading (Option (List InitrdFile))
  | 0, _, files_ => return some files_
  | fuel + 1, reader, files_ => do
      let file ← reader.next memory
      initRound memory (initLoop fuel) files_ file.1 file.2

end Initrd

/-- An `Initrd`, with the memory that its pointers point into. -/
structure Initrd where
  files_ : List Initrd.InitrdFile
  runtime_index_name_ : Initrd.CharPtr
  app_index_name_ : Initrd.CharPtr
  memory : ℕ → UInt8

namespace Initrd

/-- `Init` once the package is inflated. Without a result an assertion has failed. -/
def initInflated (files_left : ℕ) (inflated : Inflated) : Reading (Option Initrd) := do
  let reader ← PackageReader.opened files_left inflated
  let files ← initLoop inflated.memory (files_left + 1) reader []
  return files.map fun files_ =>
    ⟨files_, reader.runtime_index_name_, reader.app_index_name_, inflated.memory⟩

/-- `Initrd::Init`. Without a package there is nothing to read, and the names stay empty. -/
def init (memory : ℕ → UInt8) (platform : Platform) (buf len : ℕ) : Reading (Option Initrd) := do
  let found ← findPackage memory platform buf len
  match found.2 with
  | none => return some ⟨[], .literal "", .literal "", memory⟩
  | some inflated => initInflated found.1 inflated

/-- `strcmp` with a string that has no byte 0 gives 0 when the bytes up to the terminating one
are the same. -/
def sameString (memory : ℕ → UInt8) (name : CharPtr) (filename : List UInt8) : Bool :=
  match name with
  | .at address => ByteMemory.window memory address (filename.length + 1) == filename ++ [0]
  | .literal text => text.toUTF8.data.toList == filename
  | .nullptr => false

/-- `Initrd::Get`. -/
def get (initrd : Initrd) (filename : List UInt8) : InitrdFile :=
  (initrd.files_.find? fun file => sameString initrd.memory file._name filename).getD .invalid

end Initrd

end JsOS.Kernel
