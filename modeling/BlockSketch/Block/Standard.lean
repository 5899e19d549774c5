import BlockSketch.Block.Arithmetic
import BlockSketch.Block.Arrays
import BlockSketch.Block.Control
import BlockSketch.Block.Logic
import BlockSketch.Block.Motors
import BlockSketch.Block.Pins
import BlockSketch.Block.Procedures
import BlockSketch.Block.Registry
import BlockSketch.Block.Serial
import BlockSketch.Block.Servos
import BlockSketch.Block.Structure
import BlockSketch.Block.Texts
import BlockSketch.Block.Time
import BlockSketch.Block.Variables

/-!
The standard block library.
-/

namespace BlockSketch

def standardBlocks : List Block :=
  Block.Structure.blocks ++ Block.Pins.blocks ++ Block.Time.blocks ++ Block.Control.blocks ++
    Block.Logic.blocks ++ Block.Arithmetic.blocks ++ Block.Texts.blocks ++ Block.Serial.blocks ++
    Block.Variables.blocks ++ Block.Arrays.blocks ++ Block.Procedures.blocks ++
    Block.Motors.blocks ++ Block.Servos.blocks

def Registry.standard : Registry := .ofList standardBlocks

end BlockSketch
