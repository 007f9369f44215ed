import ShaderWeave.Design

/-!
# Graph Numbers

The identity of a node holds the number of its graph, so the handles that nodes pass on hold it too.
Graphs that get other numbers take them into every handle, and nothing else of a node changes.
-/

namespace ShaderWeave

/-- New numbers for the graphs of each stage. -/
abbrev Numbering := Stage → Nat → Nat

/-- The identity under new numbers. -/
def NodeId.renumber (numbering : Numbering) (id : NodeId) : NodeId :=
  { id with graph := numbering id.stage id.graph }

/-- The handle under new numbers. -/
def Handle.renumber (numbering : Numbering) (h : Handle) : Handle :=
  { h with owner := h.owner.map (·.renumber numbering) }

/-- The uniforms under new numbers. -/
def OcclusionUniforms.renumber (numbering : Numbering) (uniforms : OcclusionUniforms) :
    OcclusionUniforms :=
  { uniforms with node := uniforms.node.renumber numbering }

/-- The endpoint under new numbers. -/
def EndpointNode.renumber (numbering : Numbering) : EndpointNode → EndpointNode
  | meshAttribute a => meshAttribute a
  | pushConstant constant => pushConstant constant
  | positionOutput input => positionOutput (input.renumber numbering)
  | colorOutput target input => colorOutput target (input.renumber numbering)
  | producer channel input => producer channel (input.renumber numbering)
  | consumer channel expected => consumer channel expected

/-- The computation under new numbers. -/
def ArithmeticNode.renumber (numbering : Numbering) : ArithmeticNode → ArithmeticNode
  | screenQuad texCoord => screenQuad (texCoord.renumber numbering)
  | split channels kind input => split channels kind (input.renumber numbering)
  | combine xyz w => combine (xyz.renumber numbering) (w.renumber numbering)
  | math op ty left right => math op ty (left.renumber numbering) (right.renumber numbering)
  | normalize input => normalize (input.renumber numbering)
  | gamma input exponent => gamma (input.renumber numbering) (exponent.renumber numbering)
  | transform kind input matrix =>
    transform kind (input.renumber numbering) (matrix.renumber numbering)

/-- The texture node under new numbers. -/
def TextureNode.renumber (numbering : Numbering) : TextureNode → TextureNode
  | binding name arrayLen => binding name arrayLen
  | sample premultiply texture texCoord =>
    sample premultiply (texture.renumber numbering) (texCoord.renumber numbering)

/-- The light node under new numbers. -/
def LightNode.renumber (numbering : Numbering) : LightNode → LightNode
  | lights max => lights max
  | shadowVertex max channel position matrix =>
    shadowVertex max channel (position.renumber numbering) (matrix.map (·.renumber numbering))
  | shadowFragment max channel depthTextures =>
    shadowFragment max channel (depthTextures.renumber numbering)
  | lambert calls inner lightCount fragPos normal albedo =>
    lambert calls inner (lightCount.renumber numbering) (fragPos.renumber numbering)
      (normal.renumber numbering) (albedo.renumber numbering)

/-- The node of ambient occlusion under new numbers. -/
def OcclusionNode.renumber (numbering : Numbering) : OcclusionNode → OcclusionNode
  | uniforms inverse settings => uniforms inverse settings
  | unproject u depth screenPos =>
    unproject (u.renumber numbering) (depth.renumber numbering) (screenPos.renumber numbering)
  | occlusion u component noiseTex depthTex screenPos origin normal =>
    occlusion (u.renumber numbering) component (noiseTex.renumber numbering)
      (depthTex.renumber numbering) (screenPos.renumber numbering) (origin.renumber numbering)
      (normal.renumber numbering)

/-- The library node under new numbers. -/
def LibraryNode.renumber (numbering : Numbering) : LibraryNode → LibraryNode
  | endpoint node => endpoint (node.renumber numbering)
  | arithmetic node => arithmetic (node.renumber numbering)
  | camera => camera
  | texture node => texture (node.renumber numbering)
  | light node => light (node.renumber numbering)
  | occlusion node => occlusion (node.renumber numbering)

/-- The script under new numbers. -/
def Script.renumber (numbering : Numbering) (script : Script) : Script :=
  { script with
    inputs := script.inputs.map (·.renumber numbering)
    direct := script.direct.map (·.renumber numbering) }

/-- The node under new numbers. -/
def DesignNode.renumber (numbering : Numbering) : DesignNode → DesignNode
  | library node => library (node.renumber numbering)
  | scripted script => scripted (script.renumber numbering)

/-- The design under new numbers. -/
def Design.renumber (numbering : Numbering) (d : Design) : Design where
  name := d.name
  graph := numbering .vertex d.graph
  fragmentGraph := numbering .fragment d.fragmentGraph
  vertex := d.vertex.map (·.renumber numbering)
  fragment := d.fragment.map (·.renumber numbering)

end ShaderWeave
