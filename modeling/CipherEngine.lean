import CipherEngine.Bytes
import CipherEngine.Bytes.Hex
import CipherEngine.MachineWord
import CipherEngine.KeySizes
import CipherEngine.Error
import CipherEngine.Primitive.Error
import CipherEngine.Descriptor
import CipherEngine.Catalog.Basic
import CipherEngine.Catalog.Builtin
import CipherEngine.Padding
import CipherEngine.Secret
import CipherEngine.Transducer
import CipherEngine.Primitive.Rijndael.Field
import CipherEngine.Primitive.Rijndael.Basic
import CipherEngine.Primitive.Idea.Arith
import CipherEngine.Primitive.Idea.Basic
import CipherEngine.Primitive.Arcfour
import CipherEngine.Primitive.BlockCipher
import CipherEngine.Mode.Block
import CipherEngine.Mode.Feedback
import CipherEngine.Mode.Keystream
import CipherEngine.Mode.Standard
import CipherEngine.Primitive.Rijndael.Standard
import CipherEngine.Mode.Keyed
import CipherEngine.Registry
import CipherEngine.Context.Basic
import CipherEngine.Context.Stream
import CipherEngine.Text.Printable
import CipherEngine.Text.Blank
import CipherEngine.Text.Basic
import CipherEngine.Toml.Binary64
import CipherEngine.Toml.Combinators
import CipherEngine.Toml.Value
import CipherEngine.Toml.Lexical
import CipherEngine.Toml.Document
import CipherEngine.Toml.Decode
import CipherEngine.Catalog.Manifest
import CipherEngine.Catalog.TomlReader
import CipherEngine.Catalog.Load
import CipherEngine.Config
import CipherEngine.Metadata
import CipherEngine.Proofs.Mode.Split
import CipherEngine.Proofs.Mode.Standard
import CipherEngine.Proofs.Catalog.Units
import CipherEngine.Proofs.Context.Reachable
import CipherEngine.Proofs.Context.Streaming
import CipherEngine.Proofs.Padding.Layout
import CipherEngine.Proofs.Cipher.Rijndael
import CipherEngine.Proofs.Cipher.Idea
import CipherEngine.Proofs.Cipher.Field
import CipherEngine.Proofs.Cipher.Fips
import CipherEngine.Proofs.Mode.Inverse
import CipherEngine.Proofs.Context.RoundTrip
import CipherEngine.Proofs.Context.Entry
import CipherEngine.Proofs.Context.Keying
import CipherEngine.Proofs.Context.Lock
import CipherEngine.Proofs.Catalog.Pairing
import CipherEngine.Proofs.Catalog.Loading
import CipherEngine.Proofs.Context.Total
import CipherEngine.Proofs.Cipher.Permutation
import CipherEngine.Proofs.Context.StreamFailure
import CipherEngine.Proofs.Mode.Build
