import GlyphChain.FileTree
import GlyphChain.Main
import GlyphChain.Proofs.Cipher.Locality
import GlyphChain.Proofs.Cipher.StartingSum
import GlyphChain.Proofs.Cipher.UpFront
import GlyphChain.Proofs.Command.Decryption
import GlyphChain.Proofs.Command.Discipline
import GlyphChain.Proofs.Glyph.Readback
import GlyphChain.Proofs.Profile.Bundled
import GlyphChain.Proofs.Profile.Collision
import GlyphChain.Proofs.Profile.HighBits
import GlyphChain.Proofs.Profile.Precision
import GlyphChain.Proofs.Profile.WrittenOut
import GlyphChain.Proofs.Session.Reversal
import GlyphChain.Proofs.Word.Printed
