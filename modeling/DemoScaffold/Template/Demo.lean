import DemoScaffold.Template.Basic

/-!
# The demo templates

The templates of a demo module, line by line: source, header, shader, and the header that the shader
shares with the source. They use two markers, the module's key and its display name.
-/

namespace DemoScaffold.TemplateSet

def demoSource : List String :=
  [
    "#include \"\x7b\x7blower_name\x7d\x7d.hpp\"",
    "",
    "namespace fb::demos::\x7b\x7blower_name\x7d\x7d \x7b",
    "",
    "auto create(Demo& demo, const CreateDesc& desc) -> void \x7b",
    "    PIXScopedEvent(PIX_COLOR_DEFAULT, \"%s - Create\", NAME.data());",
    "    DebugScope debug(NAME);",
    "",
    "    // Unpack.",
    "    const auto& kitchen_shaders = desc.baked.kitchen.shaders;",
    "    const auto& shaders = desc.baked.buffet.shaders;",
    "    const auto& assets = desc.baked.buffet.assets;",
    "    auto& device = desc.device;",
    "",
    "    // Render targets.",
    "    demo.render_targets.create(",
    "        device,",
    "        \x7b",
    "            .size = device.swapchain().size(),",
    "            .color_format = COLOR_FORMAT,",
    "            .clear_color = CLEAR_COLOR,",
    "            .sample_count = SAMPLE_COUNT,",
    "        \x7d",
    "    );",
    "",
    "    // Debug draw.",
    "    demo.debug_draw.create(device, kitchen_shaders, demo.render_targets);",
    "",
    "    (void)shaders;",
    "    (void)assets;",
    "\x7d",
    "",
    "auto gui(Demo& demo, const GuiDesc&) -> void \x7b",
    "    PIXScopedEvent(PIX_COLOR_DEFAULT, \"%s - Gui\", NAME.data());",
    "    auto& params = demo.parameters;",
    "    (void)params;",
    "\x7d",
    "",
    "auto update(Demo& demo, const UpdateDesc& desc) -> void \x7b",
    "    PIXScopedEvent(PIX_COLOR_DEFAULT, \"%s - Update\", NAME.data());",
    "    auto& params = demo.parameters;",
    "    (void)params;",
    "    (void)desc;",
    "\x7d",
    "",
    "auto render(Demo& demo, const RenderDesc& desc) -> void \x7b",
    "    GpuCommandList& cmd = desc.cmd;",
    "    cmd.begin_pix(\"%s - Render\", NAME.data());",
    "    cmd.set_graphics();",
    "    demo.render_targets.set(cmd);",
    "    demo.debug_draw.render(cmd);",
    "    cmd.end_pix();",
    "\x7d",
    "",
    "\x7d // namespace fb::demos::\x7b\x7blower_name\x7d\x7d"
  ]

def demoInterface : List String :=
  [
    "#pragma once",
    "",
    "#include \"../common.hpp\"",
    "#include \"\x7b\x7blower_name\x7d\x7d.hlsli\"",
    "",
    "namespace fb::demos::\x7b\x7blower_name\x7d\x7d \x7b",
    "",
    "inline constexpr std::string_view NAME = \"\x7b\x7bupper_name\x7d\x7d\"sv;",
    "inline constexpr float4 CLEAR_COLOR = \x7b0.0f, 0.0f, 0.0f, 1.0f\x7d;",
    "inline constexpr DXGI_FORMAT COLOR_FORMAT = DXGI_FORMAT_R8G8B8A8_UNORM;",
    "inline constexpr uint SAMPLE_COUNT = 1;",
    "",
    "struct Parameters \x7b",
    "",
    "\x7d;",
    "",
    "struct Demo \x7b",
    "    Parameters parameters;",
    "    RenderTargets render_targets;",
    "    DebugDraw debug_draw;",
    "\x7d;",
    "",
    "struct CreateDesc \x7b",
    "    const Baked& baked;",
    "    GpuDevice& device;",
    "\x7d;",
    "",
    "auto create(Demo& demo, const CreateDesc& desc) -> void;",
    "auto gui(Demo& demo, const GuiDesc& desc) -> void;",
    "auto update(Demo& demo, const UpdateDesc& desc) -> void;",
    "auto render(Demo& demo, const RenderDesc& desc) -> void;",
    "",
    "template<Archive A>",
    "auto archive(Demo& demo, A& arc) -> void \x7b",
    "    arc& demo.parameters;",
    "\x7d",
    "",
    "\x7d // namespace fb::demos::\x7b\x7blower_name\x7d\x7d"
  ]

def demoShaderSource : List String :=
  [
    "#include <buffet/demos/\x7b\x7blower_name\x7d\x7d/\x7b\x7blower_name\x7d\x7d.hlsli>",
    "#include <kitchen/gpu/samplers.hlsli>",
    "#include <kitchen/graphics/core.hlsli>",
    "",
    "ConstantBuffer<Bindings> g_bindings: register(b0);",
    "",
    "FB_ATTRIBUTE(numthreads, DISPATCH_X, DISPATCH_Y, DISPATCH_Z)",
    "void todo_cs(FbComputeInput input) \x7b",
    "    ConstantBuffer<Constants> constants = ResourceDescriptorHeap[g_bindings.constants];",
    "\x7d",
    "",
    "struct VertexOutput \x7b",
    "    float4 position: SV_Position;",
    "\x7d;",
    "",
    "VertexOutput todo_vs(FbVertexInput input) \x7b",
    "    ConstantBuffer<Constants> constants = ResourceDescriptorHeap[g_bindings.constants];",
    "",
    "    VertexOutput output;",
    "    output.position = float4(0.0f, 0.0f, 0.0f, 1.0f);",
    "    return output;",
    "\x7d",
    "",
    "FbPixelOutput<1> todo_ps(VertexOutput input) \x7b",
    "    ConstantBuffer<Constants> constants = ResourceDescriptorHeap[g_bindings.constants];",
    "",
    "    FbPixelOutput<1> output;",
    "    output.color = float4(0.0f, 0.0f, 0.0f, 1.0f);",
    "    return output;",
    "\x7d",
    ""
  ]

def demoShaderInterface : List String :=
  [
    "#pragma once",
    "",
    "#include <kitchen/gpu/hlsl_cpp.hlsli>",
    "",
    "FB_NAMESPACE_BEGIN(fb::demos::\x7b\x7blower_name\x7d\x7d)",
    "",
    "FB_CONSTANT uint DISPATCH_X = 1;",
    "FB_CONSTANT uint DISPATCH_Y = 1;",
    "FB_CONSTANT uint DISPATCH_Z = 1;",
    "",
    "struct Bindings \x7b",
    "    uint constants;",
    "\x7d;",
    "",
    "struct Constants \x7b",
    "    float pad[64];",
    "\x7d;",
    "",
    "FB_NAMESPACE_END(fb::demos::\x7b\x7blower_name\x7d\x7d)",
    ""
  ]

/-- The text with these lines, each with a line feed at its end. -/
def ofLines (lines : List String) : String :=
  String.join (lines.map (· ++ "\n"))

def demo : TemplateSet where
  templates :=
    [ .ofBody .source (ofLines demoSource),
      .ofBody .interface (ofLines demoInterface),
      .ofBody .shaderSource (ofLines demoShaderSource),
      .ofBody .shaderInterface (ofLines demoShaderInterface) ]
  distinctKinds := by decide

end DemoScaffold.TemplateSet
